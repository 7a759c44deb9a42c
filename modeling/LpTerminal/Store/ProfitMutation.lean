import LpTerminal.Store.Allocations

/-!
What the operations on allocations leave in the two tables, token by token, and `commitProfitAllocationMutation`: an optimistic
update of several tokens, in full or not at all.
-/

namespace LpTerminal.Allocations

open Durable Fallible Store

def lastFor {α : Type} : Record α → Address → Option α
  | [], _ => none
  | (spelled, value) :: rest, token => (lastFor rest token).or (if spelled.toLowerCase = token then some value else none)

theorem lastFor_cons {α : Type} (first : RawToken × α) (rest : Record α) (token : Address) :
    lastFor (first :: rest) token = (lastFor rest token).or (if first.1.toLowerCase = token then some first.2 else none) := rfl

theorem lastFor_isSome {α : Type} {record : Record α} {token : Address} :
    (lastFor record token).isSome ↔ ∃ entry ∈ record, entry.1.toLowerCase = token := by
  induction record with
  | nil => simp [lastFor]
  | cons first rest ih =>
    rw [lastFor_cons, Option.isSome_or, Bool.or_eq_true, ih]
    by_cases same : first.1.toLowerCase = token <;> simp [same]

theorem lookup_mem {α : Type} {record : Record α} {spelled : RawToken} {value : α} (found : record.lookup spelled = some value) :
    (spelled, value) ∈ record := by
  obtain ⟨before, after, split, _⟩ := List.lookup_eq_some_iff.mp found
  rw [split]
  exact List.mem_append_right _ List.mem_cons_self

theorem row_key_ne {owner strategyId : StrategyId} {token spelled : Address} (other : ¬(owner = strategyId ∧ spelled = token)) :
    toLex (owner, token) ≠ toLex (strategyId, spelled) := by
  intro same
  exact other ⟨congrArg (fun k => (ofLex k).1) same, (congrArg (fun k => (ofLex k).2) same).symm⟩

theorem setAllocations_allocation (strategyId : StrategyId) (record : Record ℤ) (store : AllocationStore) (owner : StrategyId)
    (token : Address) :
    strategyAllocation (setAllocations strategyId record store) owner token =
      (if owner = strategyId then lastFor record token else none).or (strategyAllocation store owner token) := by
  unfold strategyAllocation setAllocations
  dsimp only
  induction record generalizing store with
  | nil => simp [lastFor]
  | cons first rest ih =>
    rw [List.foldl_cons]
    rw [ih { store with allocations := setAllocation strategyId store.allocations first }]
    rw [lastFor_cons]
    unfold setAllocation
    by_cases own : owner = strategyId ∧ first.1.toLowerCase = token
    · obtain ⟨rfl, rfl⟩ := own
      have here := Table.get?_put_same store.allocations ⟨owner, first.1.toLowerCase, first.2⟩
      dsimp only [AllocationRow.key] at here
      simp [here]
    · have other : toLex (owner, token) ≠ AllocationRow.key ⟨strategyId, first.1.toLowerCase, first.2⟩ := row_key_ne own
      rw [Table.get?_put_other other]
      by_cases owns : owner = strategyId
      · have spelled : first.1.toLowerCase ≠ token := fun same => own ⟨owns, same⟩
        simp [owns, spelled]
      · simp [owns]

theorem setAllocationComponents_component {strategyId : StrategyId} {record : Record AllocationComponent}
    {before after : ComponentTable} (written : setAllocationComponents strategyId record before = .ok after) (owner : StrategyId)
    (token : Address) :
    (after.get? (toLex (owner, token))).map ComponentRow.parts =
      (if owner = strategyId then lastFor record token else none).or ((before.get? (toLex (owner, token))).map ComponentRow.parts) := by
  induction record generalizing before with
  | nil =>
    cases written
    simp [lastFor]
  | cons first rest ih =>
    unfold setAllocationComponents at written
    split at written
    · rename_i nonNegative
      rw [ih written, lastFor_cons]
      by_cases own : owner = strategyId ∧ first.1.toLowerCase = token
      · obtain ⟨rfl, rfl⟩ := own
        have here := Table.get?_put_same before ⟨owner, first.1.toLowerCase, first.2, nonNegative⟩
        dsimp only [ComponentRow.key] at here
        simp [here]
      · have other : toLex (owner, token) ≠ ComponentRow.key ⟨strategyId, first.1.toLowerCase, first.2, nonNegative⟩ := row_key_ne own
        rw [Table.get?_put_other other]
        by_cases owns : owner = strategyId
        · have spelled : first.1.toLowerCase ≠ token := fun same => own ⟨owns, same⟩
          simp [owns, spelled]
        · simp [owns]
    · cases written

/-- The totals and the parts of one strategy are overwritten under the given tokens; nothing else moves. -/
structure Writes (strategyId : StrategyId) (allocations : Record ℤ) (components : Record AllocationComponent)
    (store after : AllocationStore) : Prop where
  allocation : ∀ owner token, strategyAllocation after owner token =
    (if owner = strategyId then lastFor allocations token else none).or (strategyAllocation store owner token)
  component : ∀ owner token, storedComponent after owner token =
    (if owner = strategyId then lastFor components token else none).or (storedComponent store owner token)
  covered : ∀ token, (lastFor components token).isSome → (lastFor allocations token).isSome

variable {strategyId : StrategyId} {allocations : Record ℤ} {components : Record AllocationComponent} {store after : AllocationStore}

theorem writes_totals (strategyId : StrategyId) (allocations : Record ℤ) (store : AllocationStore) :
    Writes strategyId allocations [] store (setAllocations strategyId allocations store) where
  allocation := setAllocations_allocation strategyId allocations store
  component owner token := by
    simp only [lastFor, ite_self, Option.none_or]
    rfl
  covered token known := by cases known

theorem writes_parts {table : ComponentTable} (written : setAllocationComponents strategyId components store.components = .ok table)
    (covered : ∀ entry ∈ components, (lastFor allocations entry.1.toLowerCase).isSome) :
    Writes strategyId allocations components store { setAllocations strategyId allocations store with components := table } where
  allocation := setAllocations_allocation strategyId allocations store
  component := setAllocationComponents_component written
  covered token known := by
    obtain ⟨entry, member, rfl⟩ := lastFor_isSome.mp known
    exact covered entry member

theorem Writes.frame (writes : Writes strategyId allocations components store after) {store' after' : AllocationStore}
    (before : store'.allocations = store.allocations ∧ store'.components = store.components)
    (result : after'.allocations = after.allocations ∧ after'.components = after.components) :
    Writes strategyId allocations components store' after' where
  allocation owner token := by
    have same := writes.allocation owner token
    unfold strategyAllocation at same ⊢
    rw [before.1, result.1]
    exact same
  component owner token := by
    have same := writes.component owner token
    unfold storedComponent at same ⊢
    rw [before.2, result.2]
    exact same
  covered := writes.covered

theorem writeComponents_spec {Q : Unit → AllocationStore → Prop} {E : AllocationStore → Prop}
    (written : ∀ table, setAllocationComponents strategyId components store.components = .ok table →
      Q () { store with components := table })
    (refused : E store) : Triple (· = store) (writeComponents strategyId components) Q E := by
  refine triple_tryWrite ?_ ?_
  · intro here final same told
    subst same
    cases result : setAllocationComponents strategyId components here.components with
    | error e =>
      rw [result] at told
      cases told
    | ok table =>
      rw [result] at told
      cases told
      exact written table result
  · intro here e same _
    rw [same]
    exact refused

theorem commitAllocations_spec (given : Option (Record AllocationComponent)) :
    Triple (· = store) (commitAllocations strategyId allocations given)
      (fun _ after => Writes strategyId allocations (given.getD []) store after ∧ after.strategies = store.strategies) fun _ => True := by
  unfold commitAllocations
  refine triple_bind (Q := fun _ middle => middle = setAllocations strategyId allocations store)
    (triple_write fun here same => by rw [same]) fun _ => ?_
  cases given with
  | none =>
    refine triple_pure fun middle same => ?_
    subst same
    exact ⟨writes_totals strategyId allocations store, rfl⟩
  | some components =>
    refine triple_bind (Q := fun _ middle => (∀ entry ∈ components, some entry.2.total =
        (allocations.lookup (.ofLowerCase entry.1.toLowerCase)).or (allocations.lookup entry.1)) ∧
          middle = setAllocations strategyId allocations store)
      (triple_reply (fun _ _ same told => ⟨demand_ok.mp told, same⟩) fun _ _ _ _ => trivial) fun _ => ?_
    refine triple_assume fun totals => writeComponents_spec (fun table written => ?_) trivial
    refine ⟨writes_parts written fun entry member => ?_, rfl⟩
    rcases Option.or_eq_some_iff.mp (totals entry member).symm with found | ⟨_, found⟩
    · exact lastFor_isSome.mpr ⟨_, lookup_mem found, rfl⟩
    · exact lastFor_isSome.mpr ⟨_, lookup_mem found, rfl⟩

section Lowered

variable {α β : Type}

theorem lookup_cons_if (first : Address × α) (rest : List (Address × α)) (token : Address) :
    (first :: rest).lookup token = if token = first.1 then some first.2 else rest.lookup token := by
  rw [List.lookup_cons]
  by_cases same : token = first.1
  · simp [same]
  · have apart : (token == first.1) = false := beq_false_of_ne same
    rw [apart, if_neg same]

theorem setEntry_lookup (token : Address) (value : α) (entries : List (Address × α)) (other : Address) :
    (setEntry token value entries).lookup other = if other = token then some value else entries.lookup other := by
  induction entries with
  | nil => exact lookup_cons_if (token, value) [] other
  | cons first rest ih =>
    unfold setEntry
    split
    · rename_i here
      rw [lookup_cons_if, lookup_cons_if, here]
      split <;> rfl
    · rename_i elsewhere
      rw [lookup_cons_if, lookup_cons_if, ih]
      by_cases same : other = first.1
      · simp [same, elsewhere]
      · simp [same]

variable {entries : List (Address × α)}

theorem mem_setEntry_keys {token other : Address} {value : α} :
    other ∈ (setEntry token value entries).map Prod.fst ↔ other = token ∨ other ∈ entries.map Prod.fst := by
  induction entries with
  | nil => simp [setEntry]
  | cons first rest ih =>
    unfold setEntry
    split
    · rename_i here
      simp [here]
    · simp only [List.map_cons, List.mem_cons, ih]
      tauto

theorem setEntry_distinct {token : Address} {value : α} (distinct : (entries.map Prod.fst).Nodup) :
    ((setEntry token value entries).map Prod.fst).Nodup := by
  induction entries with
  | nil => simp [setEntry]
  | cons first rest ih =>
    obtain ⟨fresh, distinct⟩ := List.nodup_cons.mp distinct
    unfold setEntry
    split
    · rename_i here
      rw [List.map_cons, ← here]
      exact List.nodup_cons.mpr ⟨fresh, distinct⟩
    · rename_i elsewhere
      refine List.nodup_cons.mpr ⟨fun member => ?_, ih distinct⟩
      rcases mem_setEntry_keys.mp member with same | old
      · exact elsewhere same
      · exact fresh old

theorem fromEntries_lookup (record : Record α) (token : Address) : (fromEntries record).lookup token = lastFor record token := by
  have fold : ∀ entries : List (Address × α),
      (record.foldl (fun entries entry => setEntry entry.1.toLowerCase entry.2 entries) entries).lookup token =
        (lastFor record token).or (entries.lookup token) := by
    induction record with
    | nil => exact fun _ => rfl
    | cons first rest ih =>
      intro entries
      rw [List.foldl_cons, ih, setEntry_lookup, lastFor_cons, Option.or_assoc]
      by_cases same : token = first.1.toLowerCase
      · simp [same]
      · simp [same, Ne.symm same]
  exact (fold []).trans (Option.or_none ..)

theorem fromEntries_distinct (record : Record α) : ((fromEntries record).map Prod.fst).Nodup := by
  have fold : ∀ entries : List (Address × α), (entries.map Prod.fst).Nodup →
      ((record.foldl (fun entries entry => setEntry entry.1.toLowerCase entry.2 entries) entries).map Prod.fst).Nodup := by
    induction record with
    | nil => exact fun _ distinct => distinct
    | cons first rest ih => exact fun entries distinct => ih _ (setEntry_distinct distinct)
  exact fold [] List.nodup_nil

theorem lookup_of_mem (distinct : (entries.map Prod.fst).Nodup) {entry : Address × α}
    (member : entry ∈ entries) : entries.lookup entry.1 = some entry.2 := by
  induction entries with
  | nil => cases member
  | cons first rest ih =>
    obtain ⟨fresh, distinct⟩ := List.nodup_cons.mp distinct
    rw [lookup_cons_if]
    rcases List.mem_cons.mp member with rfl | later
    · rw [if_pos rfl]
    · have other : entry.1 ≠ first.1 := fun same => fresh (same ▸ List.mem_map_of_mem later)
      rw [if_neg other, ih distinct later]

theorem lastFor_distinct (distinct : (entries.map Prod.fst).Nodup) (value : α → β) (token : Address) :
    lastFor (entries.map fun entry => (RawToken.ofLowerCase entry.1, value entry.2)) token = (entries.lookup token).map value := by
  induction entries with
  | nil => rfl
  | cons first rest ih =>
    obtain ⟨fresh, distinct⟩ := List.nodup_cons.mp distinct
    rw [List.map_cons, lastFor_cons, ih distinct]
    change (Option.map value (List.lookup token rest)).or (if first.1 = token then some (value first.2) else none) = _
    by_cases same : first.1 = token
    · subst same
      have missing : rest.lookup first.1 = none := by
        refine List.lookup_eq_none_iff.mpr fun entry member => ?_
        exact bne_iff_ne.mpr fun same => fresh (List.mem_map.mpr ⟨entry, member, same.symm⟩)
      simp [missing, lookup_cons_if]
    · simp [same, Ne.symm same, lookup_cons_if]

theorem lastFor_lowered (record : Record α) (token : Address) : lastFor (lowered record) token = lastFor record token := by
  have same := lastFor_distinct (fromEntries_distinct record) id token
  rw [Option.map_id, id, fromEntries_lookup] at same
  exact same

end Lowered

theorem lastFor_nextTotals (next : Record AllocationComponent) (token : Address) :
    lastFor (nextTotals next) token = (lastFor next token).map AllocationComponent.total := by
  have same := lastFor_distinct (fromEntries_distinct next) AllocationComponent.total token
  rw [fromEntries_lookup] at same
  unfold nextTotals lowered
  rw [List.map_map]
  exact same

theorem nextTotals_covered (next : Record AllocationComponent) :
    ∀ entry ∈ lowered next, (lastFor (nextTotals next) entry.1.toLowerCase).isSome := by
  intro entry member
  rw [lastFor_nextTotals, Option.isSome_map, ← lastFor_lowered]
  exact lastFor_isSome.mpr ⟨entry, member, rfl⟩

theorem commitRebalance_spec (args : CommitArgs) (store : AllocationStore) :
    Triple (· = store) (commitRebalance args)
      (fun _ after => Writes args.strategyId args.allocations (args.allocationComponents.getD []) store after) (· = store) := by
  refine triple_atomically fun start same => ?_
  subst same
  refine triple_bind (Q := fun _ middle => middle = setArchived args.strategyId false start)
    (triple_write fun here same => by rw [same]) fun _ => ?_
  refine triple_bind (triple_weaken (commitAllocations_spec args.allocationComponents) (fun _ same => same) (fun _ _ wrote => wrote)
    fun _ _ => rfl) fun _ => ?_
  refine triple_reply (fun _ _ wrote _ => ?_) fun _ _ _ _ => rfl
  exact wrote.1.frame ⟨rfl, rfl⟩ ⟨rfl, rfl⟩

theorem commitFeeCollection_spec (args : CommitArgs) (store : AllocationStore) :
    Triple (· = store) (commitFeeCollection args)
      (fun _ after => Writes args.strategyId args.allocations (args.allocationComponents.getD []) store after) (· = store) := by
  refine triple_atomically fun start same => ?_
  subst same
  refine triple_bind (triple_weaken (commitAllocations_spec args.allocationComponents) (fun _ same => same) (fun _ _ wrote => wrote)
    fun _ _ => rfl) fun _ => ?_
  refine triple_bind (Q := fun _ after => Writes args.strategyId args.allocations (args.allocationComponents.getD []) start after)
    (triple_reply (fun _ _ wrote _ => wrote.1) fun _ _ _ _ => rfl) fun _ => ?_
  exact triple_write fun _ wrote => wrote.frame ⟨rfl, rfl⟩ ⟨rfl, rfl⟩

theorem commitHoldQuote_spec (strategyId : StrategyId) (allocations : Record ℤ) (rest : Except ErrorCode Unit) (store : AllocationStore) :
    Triple (· = store) (commitHoldQuote strategyId allocations rest)
      (fun _ after => Writes strategyId allocations [] store after) (· = store) := by
  refine triple_atomically fun start same => ?_
  subst same
  refine triple_bind (Q := fun _ middle => middle = setArchived strategyId false start)
    (triple_write fun here same => by rw [same]) fun _ => ?_
  refine triple_bind (Q := fun _ after => Writes strategyId allocations [] start after)
    (triple_write fun here same => ?_) fun _ => ?_
  · rw [same]
    exact (writes_totals strategyId allocations _).frame ⟨rfl, rfl⟩ ⟨rfl, rfl⟩
  · exact triple_reply (fun _ _ wrote _ => wrote) fun _ _ _ _ => rfl

theorem archiveStrategy_spec (strategyId : StrategyId) (allocations : Option (Record ℤ)) (rest : Except ErrorCode Unit)
    (store : AllocationStore) :
    Triple (· = store) (archiveStrategy strategyId allocations rest)
      (fun _ after => Writes strategyId (allocations.getD []) [] store after) (· = store) := by
  refine triple_atomically fun start same => ?_
  subst same
  refine triple_bind (Q := fun _ after => after = start) (triple_read fun _ same => same) fun _ => ?_
  iterate 2 refine triple_bind (Q := fun _ after => after = start) (triple_reply (fun _ _ same _ => same) fun _ _ _ _ => rfl) fun _ => ?_
  refine triple_bind (Q := fun _ after => Writes strategyId (allocations.getD []) [] start after)
    (triple_write fun here same => by rw [same]; exact writes_totals strategyId _ _) fun _ => ?_
  exact triple_write fun _ wrote => wrote.frame ⟨rfl, rfl⟩ ⟨rfl, rfl⟩

variable {store : AllocationStore} {args : MutationArgs} {strategyId : StrategyId} {walletId : WalletId} {token : Address}

theorem classify_stored (row : ComponentRow) (total : ℤ) :
    classify (some row.parts) total = if row.parts.total = total then row.parts else .held total := by
  simp only [classify, row.nonNegative, true_and]

variable {parts : AllocationComponent}

theorem zero_of_total (nonNegative : parts.NonNegative) (total : parts.total = 0) :
    parts = .zero := by
  obtain ⟨principal, heldFee, heldProfit⟩ := parts
  obtain ⟨first, second, third⟩ := nonNegative
  simp only [AllocationComponent.total] at first second third total
  simp only [AllocationComponent.zero, AllocationComponent.mk.injEq]
  omega

theorem rechecked_eq (store : AllocationStore) (strategyId : StrategyId) (token : Address) :
    recheckedComponent store strategyId token = (strategyAllocationComponents store strategyId token).getD .zero := by
  unfold recheckedComponent strategyAllocationComponents storedComponent
  cases strategyAllocation store strategyId token with
  | some total =>
    cases store.components.get? (toLex (strategyId, token)) with
    | none => rfl
    | some row => exact (classify_stored row total).symm
  | none =>
    cases store.components.get? (toLex (strategyId, token)) with
    | none => rfl
    | some row =>
      simp only [Option.map_some, Option.map_none, Option.getD_none]
      split
      · rename_i total
        exact zero_of_total row.nonNegative total
      · rfl

def walletOthers (store : AllocationStore) (walletId : WalletId) (strategyId : StrategyId) (token : Address) : ℤ :=
  store.allocations.total (fun row => counted store walletId row.strategyId && row.token = token && !(row.strategyId = strategyId))
    AllocationRow.amount

theorem walletTotal_split (store : AllocationStore) (walletId : WalletId) (strategyId : StrategyId) (token : Address) :
    walletTotal store walletId token = walletShare store walletId strategyId token + walletOthers store walletId strategyId token :=
  Table.total_split fun row : AllocationRow => decide (row.strategyId = strategyId)

theorem walletOthers_setAllocation (entry : RawToken × ℤ) :
    walletOthers { store with allocations := setAllocation strategyId store.allocations entry } walletId strategyId token =
      walletOthers store walletId strategyId token := by
  unfold walletOthers setAllocation
  dsimp only
  rw [Table.total_put]
  simp only [decide_true, Bool.not_true, Bool.and_false, Bool.false_eq_true, if_false, zero_add]
  refine Table.total_congr fun row _ => ?_
  by_cases own : row.strategyId = strategyId
  · simp [own]
  · have other : row.key ≠ AllocationRow.key ⟨strategyId, entry.1.toLowerCase, entry.2⟩ :=
      row_key_ne fun same => own same.1
    simp [other]
    rfl

theorem walletOthers_setAllocations (record : Record ℤ) :
    walletOthers (setAllocations strategyId record store) walletId strategyId token = walletOthers store walletId strategyId token := by
  unfold setAllocations
  induction record generalizing store with
  | nil => rfl
  | cons first rest ih =>
    rw [List.foldl_cons]
    exact (@ih { store with allocations := setAllocation strategyId store.allocations first }).trans (walletOthers_setAllocation first)

theorem walletShare_eq (store : AllocationStore) (walletId : WalletId) (strategyId : StrategyId) (token : Address) :
    walletShare store walletId strategyId token =
      if counted store walletId strategyId then (strategyAllocation store strategyId token).getD 0 else 0 := by
  unfold strategyAllocation
  split
  · rename_i counts
    refine Eq.trans (Table.total_congr fun row _ => ?_) (Table.total_key (toLex (strategyId, token)))
    by_cases own : row.strategyId = strategyId ∧ row.token = token
    · obtain ⟨rfl, rfl⟩ := own
      simp [counts, AllocationRow.key]
    · have other : row.key ≠ toLex (strategyId, token) := row_key_ne fun same => own ⟨same.1, same.2.symm⟩
      simp only [other, decide_false]
      by_cases owns : row.strategyId = strategyId
      · have elsewhere : row.token ≠ token := fun same => own ⟨owns, same⟩
        simp [elsewhere]
      · simp [owns]
  · rename_i apart
    have none : store.allocations.total
        (fun row => counted store walletId row.strategyId && row.token = token && row.strategyId = strategyId) AllocationRow.amount =
          store.allocations.total (fun _ => false) AllocationRow.amount := by
      refine Table.total_congr fun row _ => ?_
      by_cases own : row.strategyId = strategyId
      · simp [own, apart]
      · simp [own]
    unfold walletShare
    rw [none]
    simp [Table.total]

theorem updatedTotals_distinct {entries : Record ℤ} (distinct : (entries.map fun entry => entry.1.toLowerCase).Nodup) :
    updatedTotals store walletId strategyId entries token =
      match lastFor entries token with
      | some amount => walletOthers store walletId strategyId token + amount
      | none => walletTotal store walletId token := by
  have fold : ∀ totals : Address → ℤ, entries.foldl
      (fun totals entry => Function.update totals entry.1.toLowerCase
        (totals entry.1.toLowerCase - walletShare store walletId strategyId entry.1.toLowerCase + entry.2)) totals token =
      match lastFor entries token with
      | some amount => totals token - walletShare store walletId strategyId token + amount
      | none => totals token := by
    induction entries with
    | nil => exact fun _ => rfl
    | cons first rest ih =>
      intro totals
      obtain ⟨fresh, distinct⟩ := List.nodup_cons.mp distinct
      rw [List.foldl_cons, ih distinct, lastFor_cons]
      by_cases same : first.1.toLowerCase = token
      · subst same
        have missing : lastFor rest first.1.toLowerCase = none := by
          refine Option.not_isSome_iff_eq_none.mp fun known => ?_
          obtain ⟨entry, member, same⟩ := lastFor_isSome.mp known
          exact fresh (List.mem_map.mpr ⟨entry, member, same⟩)
        simp [missing]
      · simp [same, Function.update_of_ne (Ne.symm same)]
  unfold updatedTotals
  rw [fold]
  have split := walletTotal_split store walletId strategyId token
  cases lastFor entries token with
  | none => rfl
  | some amount =>
    dsimp only
    rw [split, add_sub_cancel_left]

/-- The conditions of a commit: what was expected is there, no next part is negative, the wallet covers the
new total of every token beside what its other strategies hold, and the database takes the writes. -/
structure Accepted (args : MutationArgs) (store : AllocationStore) : Prop where
  expected : ∀ entry ∈ args.expected,
    (strategyAllocationComponents store args.strategyId entry.1.toLowerCase).getD .zero = entry.2
  nonNegative : ∀ entry ∈ args.next, entry.2.NonNegative
  covered : ∀ token parts, lastFor args.next token = some parts →
    0 ≤ walletOthers store args.walletId args.strategyId token + parts.total ∧
      walletOthers store args.walletId args.strategyId token + parts.total ≤ balanceOf args.balances token
  stored : args.stored = .ok ()

def mutated (args : MutationArgs) (store : AllocationStore) (components : ComponentTable) : AllocationStore :=
  { setAllocations args.strategyId (nextTotals args.next) store with
    components, ledger := args.ledger.foldl insertOrIgnore store.ledger }

theorem lastFor_mem {α : Type} {record : Record α} {token : Address} {value : α} (found : lastFor record token = some value) :
    ∃ spelled, (spelled, value) ∈ record := by
  induction record with
  | nil => cases found
  | cons first rest ih =>
    rw [lastFor_cons, Option.or_eq_some_iff] at found
    rcases found with later | ⟨_, here⟩
    · obtain ⟨spelled, member⟩ := ih later
      exact ⟨spelled, List.mem_cons_of_mem _ member⟩
    · split at here
      · cases here
        exact ⟨first.1, List.mem_cons_self⟩
      · cases here

theorem nextTotals_distinct (next : Record AllocationComponent) : ((nextTotals next).map fun entry => entry.1.toLowerCase).Nodup := by
  unfold nextTotals lowered
  rw [List.map_map, List.map_map]
  exact fromEntries_distinct next

theorem assertUpdate_iff (next : Record AllocationComponent) (balances : Record ℤ) :
    assertWalletAllocationUpdate store walletId strategyId balances (nextTotals next) = .ok () ↔
      ∀ token parts, lastFor next token = some parts →
        0 ≤ walletOthers store walletId strategyId token + parts.total ∧
          walletOthers store walletId strategyId token + parts.total ≤ balanceOf balances token := by
  have totals : ∀ token parts, lastFor next token = some parts →
      updatedTotals store walletId strategyId (nextTotals next) token =
        walletOthers store walletId strategyId token + parts.total := by
    intro token parts found
    rw [updatedTotals_distinct (nextTotals_distinct next), lastFor_nextTotals, found]
    rfl
  unfold assertWalletAllocationUpdate
  rw [demand_ok]
  constructor
  · intro covered token parts found
    have known : (lastFor (nextTotals next) token).isSome := by
      rw [lastFor_nextTotals, found]
      rfl
    obtain ⟨entry, member, rfl⟩ := lastFor_isSome.mp known
    have bounds := covered entry member
    rwa [totals _ parts found] at bounds
  · intro covered entry member
    have known := lastFor_isSome.mpr ⟨entry, member, rfl⟩
    rw [lastFor_nextTotals, Option.isSome_map] at known
    obtain ⟨parts, found⟩ := Option.isSome_iff_exists.mp known
    rw [totals _ parts found]
    exact covered _ parts found

theorem lowered_nonNegative {next : Record AllocationComponent} (nonNegative : ∀ entry ∈ next, entry.2.NonNegative) :
    ∀ entry ∈ lowered next, entry.2.NonNegative := by
  intro entry member
  obtain ⟨source, here, rfl⟩ := List.mem_map.mp member
  have found := lookup_of_mem (fromEntries_distinct next) here
  rw [fromEntries_lookup] at found
  obtain ⟨spelled, given⟩ := lastFor_mem found
  exact nonNegative (spelled, source.2) given

theorem setAllocationComponents_ok {record : Record AllocationComponent} (nonNegative : ∀ entry ∈ record, entry.2.NonNegative)
    (table : ComponentTable) : ∃ after, setAllocationComponents strategyId record table = .ok after := by
  induction record generalizing table with
  | nil => exact ⟨table, rfl⟩
  | cons first rest ih =>
    obtain ⟨own, later⟩ := List.forall_mem_cons.mp nonNegative
    unfold setAllocationComponents
    rw [dif_pos own]
    exact ih later _

theorem mutation_spec (args : MutationArgs) (store : AllocationStore) :
    Triple (· = store) (commitProfitAllocationMutation args)
      (fun _ after => Accepted args store ∧ ∃ components,
        setAllocationComponents args.strategyId (lowered args.next) store.components = .ok components ∧
          after = mutated args store components)
      (fun after => ¬ Accepted args store ∧ after = store) := by
  unfold commitProfitAllocationMutation
  refine triple_bind (Q := fun told here => told = store ∧ here = store) (triple_read fun _ same => ⟨same, same⟩) fun told => ?_
  refine triple_assume fun here => ?_
  subst here
  refine triple_bind (Q := fun _ here => (∀ entry ∈ args.expected,
      (strategyAllocationComponents told args.strategyId entry.1.toLowerCase).getD .zero = entry.2) ∧ here = told)
    (triple_reply (fun _ _ same answer => ⟨demand_ok.mp answer, same⟩) fun _ _ same answer => ⟨fun accepted => demand_error answer accepted.expected, same⟩) fun _ => ?_
  refine triple_assume fun expected => ?_
  refine triple_bind (Q := fun _ here => (∀ entry ∈ args.next, entry.2.NonNegative) ∧ here = told)
    (triple_reply (fun _ _ same answer => ⟨demand_ok.mp answer, same⟩) fun _ _ same answer => ⟨fun accepted => demand_error answer accepted.nonNegative, same⟩) fun _ => ?_
  refine triple_assume fun nonNegative => ?_
  refine triple_bind (Q := fun _ here => assertWalletAllocationUpdate told args.walletId args.strategyId args.balances
      (nextTotals args.next) = .ok () ∧ here = told)
    (triple_reply (fun _ _ same answer => ⟨answer, same⟩) fun _ _ same answer => ⟨fun accepted => ?_, same⟩) fun _ => ?_
  · rw [(assertUpdate_iff args.next args.balances).mpr accepted.covered] at answer
    cases answer
  refine triple_assume fun asserted => ?_
  have covered := (assertUpdate_iff args.next args.balances).mp asserted
  refine triple_atomically fun start same => ?_
  subst same
  refine triple_bind (Q := fun again here => again = start ∧ here = start) (triple_read fun _ same => ⟨same, same⟩) fun again => ?_
  refine triple_assume fun here => ?_
  subst here
  refine triple_bind (Q := fun _ here => here = again) (triple_reply (fun _ _ same _ => same) fun _ _ _ answer =>
    ⟨fun accepted => demand_error answer fun entry member => ?_, rfl⟩) fun _ => ?_
  · rw [rechecked_eq]
    exact accepted.expected entry member
  refine triple_bind (Q := fun _ here => here = setAllocations args.strategyId (nextTotals args.next) again)
    (triple_write fun _ same => by rw [same]) fun _ => ?_
  obtain ⟨components, written⟩ := setAllocationComponents_ok (lowered_nonNegative nonNegative) again.components
  refine triple_bind (Q := fun _ here => here = { setAllocations args.strategyId (nextTotals args.next) again with components })
    (triple_tryWrite ?_ ?_) fun _ => ?_
  · intro here after same told
    subst same
    rw [show (setAllocations args.strategyId (nextTotals args.next) again).components = again.components from rfl, written] at told
    cases told
    rfl
  · intro here e same told
    subst same
    rw [show (setAllocations args.strategyId (nextTotals args.next) again).components = again.components from rfl, written] at told
    cases told
  refine triple_bind (Q := fun _ here => here = mutated args again components)
    (triple_write fun _ same => by rw [same]; rfl) fun _ => ?_
  refine triple_reply (fun here _ same answer => ?_) fun _ _ _ answer => ⟨fun accepted => ?_, rfl⟩
  · exact ⟨⟨expected, nonNegative, covered, answer⟩, components, written, same⟩
  · rw [accepted.stored] at answer
    cases answer

variable {components : ComponentTable}

section

variable (written : setAllocationComponents args.strategyId (lowered args.next) store.components = .ok components)
include written

theorem mutated_writes
 :
    Writes args.strategyId (nextTotals args.next) (lowered args.next) store (mutated args store components) :=
  (writes_parts written (nextTotals_covered args.next)).frame ⟨rfl, rfl⟩ ⟨rfl, rfl⟩

theorem mutated_token

    (nonNegative : ∀ entry ∈ args.next, entry.2.NonNegative) (given : lastFor args.next token = some parts) :
    strategyAllocationComponents (mutated args store components) args.strategyId token = some parts ∧
      strategyAllocation (mutated args store components) args.strategyId token = some parts.total := by
  have writes := mutated_writes written
  have total := writes.allocation args.strategyId token
  have stored := writes.component args.strategyId token
  rw [if_pos rfl, lastFor_nextTotals, given, Option.map_some, Option.some_or] at total
  rw [if_pos rfl, lastFor_lowered, given, Option.some_or] at stored
  obtain ⟨spelled, member⟩ := lastFor_mem given
  refine ⟨?_, total⟩
  unfold strategyAllocationComponents
  rw [total, stored, Option.map_some]
  simp [classify, nonNegative _ member]

theorem mutated_frame
    {owner : StrategyId}
    (outside : owner ≠ args.strategyId ∨ lastFor args.next token = none) :
    strategyAllocation (mutated args store components) owner token = strategyAllocation store owner token ∧
      storedComponent (mutated args store components) owner token = storedComponent store owner token := by
  have writes := mutated_writes written
  have total := writes.allocation owner token
  have stored := writes.component owner token
  rw [lastFor_nextTotals] at total
  rw [lastFor_lowered] at stored
  rcases outside with other | absent
  · rw [if_neg other, Option.none_or] at total stored
    exact ⟨total, stored⟩
  · rw [absent, Option.map_none, ite_self, Option.none_or] at total
    rw [absent, ite_self, Option.none_or] at stored
    exact ⟨total, stored⟩

theorem mutated_parts

    (nonNegative : ∀ entry ∈ args.next, entry.2.NonNegative) (token : Address) :
    (strategyAllocationComponents (mutated args store components) args.strategyId token).getD .zero =
      (lastFor args.next token).getD ((strategyAllocationComponents store args.strategyId token).getD .zero) := by
  cases given : lastFor args.next token with
  | some parts =>
    rw [(mutated_token written nonNegative given).1]
    rfl
  | none =>
    obtain ⟨total, stored⟩ := @mutated_frame _ _ _ _ written args.strategyId (Or.inr given)
    unfold strategyAllocationComponents
    rw [total, stored]
    rfl

end

theorem mutated_covered (accepted : Accepted args store)
    (written : setAllocationComponents args.strategyId (lowered args.next) store.components = .ok components)
    (given : lastFor args.next token = some parts) :
    walletTotal (mutated args store components) args.walletId token ≤ balanceOf args.balances token := by
  obtain ⟨spelled, member⟩ := lastFor_mem given
  obtain ⟨principal, heldFee, heldProfit⟩ := accepted.nonNegative _ member
  have others : walletOthers (mutated args store components) args.walletId args.strategyId token =
      walletOthers store args.walletId args.strategyId token := walletOthers_setAllocations (nextTotals args.next)
  have share : walletShare (mutated args store components) args.walletId args.strategyId token ≤ parts.total := by
    rw [walletShare_eq, (mutated_token written accepted.nonNegative given).2, Option.getD_some]
    split
    · exact le_refl _
    · exact add_nonneg (add_nonneg principal heldFee) heldProfit
  have covers := (accepted.covered token parts given).2
  have split := walletTotal_split (mutated args store components) args.walletId args.strategyId token
  omega

/-- The mutation commits in full where its conditions hold, and elsewhere throws and changes nothing. -/
theorem commitProfitAllocationMutation_atomic (args : MutationArgs) (store : AllocationStore) :
    (¬ Accepted args store → ∃ e, (commitProfitAllocationMutation args).run store = (.error e, store)) ∧
      (Accepted args store → ∃ after, (commitProfitAllocationMutation args).run store = (.ok (), after) ∧
        (∀ token parts, lastFor args.next token = some parts →
          strategyAllocationComponents after args.strategyId token = some parts ∧
            strategyAllocation after args.strategyId token = some parts.total ∧
            walletTotal after args.walletId token ≤ balanceOf args.balances token) ∧
        (∀ owner token, owner ≠ args.strategyId ∨ lastFor args.next token = none →
          strategyAllocation after owner token = strategyAllocation store owner token ∧
            storedComponent after owner token = storedComponent store owner token) ∧
        after.strategies = store.strategies ∧ after.ledger = args.ledger.foldl insertOrIgnore store.ledger) := by
  have spec := mutation_spec args store store rfl
  rcases ran : (commitProfitAllocationMutation args).run store with ⟨outcome, after⟩
  rw [ran] at spec
  cases outcome with
  | error e =>
    obtain ⟨refused, rfl⟩ := spec
    exact ⟨fun _ => ⟨e, rfl⟩, fun accepted => absurd accepted refused⟩
  | ok =>
    obtain ⟨accepted, components, written, rfl⟩ := spec
    refine ⟨fun refused => absurd accepted refused, fun _ => ⟨_, rfl, fun token parts given => ?_, fun owner token outside => ?_, rfl, rfl⟩⟩
    · obtain ⟨classified, total⟩ := mutated_token written accepted.nonNegative given
      exact ⟨classified, total, mutated_covered accepted written given⟩
    · exact mutated_frame written outside

def sharedWallet : AllocationStore where
  strategies := (Table.empty.put ⟨7, some 1, true⟩).put ⟨8, some 1, false⟩
  allocations := (Table.empty.put ⟨7, 5, 10⟩).put ⟨8, 5, 90⟩
  components := Table.empty.put ⟨7, 5, ⟨0, 0, 10⟩, by decide⟩
  ledger := []

/-- The wallet holds 95 of the token. Releasing two of the archived strategy's ten is refused, though the
live allocations stay at 90. A map with two spellings of the token leaves the parts of the second only. A
balance under a mixed-case key is not found. -/
theorem commitProfitAllocationMutation_corner_cases :
    let expected : Record AllocationComponent := [(⟨5, 0⟩, ⟨0, 0, 10⟩)]
    let archived : MutationArgs := ⟨7, 1, expected, [(⟨5, 0⟩, ⟨0, 0, 8⟩)], [(⟨5, 0⟩, 95)], [], .ok ()⟩
    let spelledTwice : MutationArgs := ⟨7, 1, expected, [(⟨5, 1⟩, ⟨0, 0, 8⟩), (⟨5, 0⟩, ⟨0, 0, 9⟩)], [(⟨5, 0⟩, 120)], [], .ok ()⟩
    let mixedBalance : MutationArgs := ⟨7, 1, expected, [(⟨5, 0⟩, ⟨0, 0, 8⟩)], [(⟨5, 1⟩, 120)], [], .ok ()⟩
    (walletTotal sharedWallet 1 5 = 90 ∧
        ((commitProfitAllocationMutation archived).run sharedWallet).1 = .error .allocationMismatch) ∧
      (((commitProfitAllocationMutation spelledTwice).run sharedWallet).1 = .ok () ∧
        strategyAllocationComponents (left (commitProfitAllocationMutation spelledTwice) sharedWallet) 7 5 = some ⟨0, 0, 9⟩) ∧
      ((commitProfitAllocationMutation mixedBalance).run sharedWallet).1 = .error .allocationMismatch := by
  decide

end LpTerminal.Allocations
