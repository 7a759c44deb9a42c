import LpTerminal.Lib.Trace
import LpTerminal.Store.ProfitMutation

/-!
The parts of an allocation over every order of the operations that write it. The history beside the
store says what the last commit of each token declared; only the proofs read it.
-/

namespace LpTerminal.Allocations

open Durable Fallible Store Trace

inductive Call
  | commitRebalance (args : CommitArgs)
  | commitFeeCollection (args : CommitArgs)
  | commitHoldQuote (strategyId : StrategyId) (allocations : Record ℤ) (rest : Except ErrorCode Unit)
  | archiveStrategy (strategyId : StrategyId) (allocations : Option (Record ℤ)) (rest : Except ErrorCode Unit)
  | commitProfitAllocationMutation (args : MutationArgs)
  | compoundHeldAllocations (strategyId : StrategyId)

namespace Call

def program : Call → Durable ErrorCode AllocationStore Unit
  | commitRebalance args => Allocations.commitRebalance args
  | commitFeeCollection args => Allocations.commitFeeCollection args
  | commitHoldQuote strategyId allocations rest => Allocations.commitHoldQuote strategyId allocations rest
  | archiveStrategy strategyId allocations rest => Allocations.archiveStrategy strategyId allocations rest
  | commitProfitAllocationMutation args => Allocations.commitProfitAllocationMutation args
  | compoundHeldAllocations strategyId => Allocations.compoundHeldAllocations strategyId

def strategyId : Call → StrategyId
  | commitRebalance args => args.strategyId
  | commitFeeCollection args => args.strategyId
  | commitHoldQuote strategyId _ _ => strategyId
  | archiveStrategy strategyId _ _ => strategyId
  | commitProfitAllocationMutation args => args.strategyId
  | compoundHeldAllocations strategyId => strategyId

def allocations : Call → Record ℤ
  | commitRebalance args => args.allocations
  | commitFeeCollection args => args.allocations
  | commitHoldQuote _ allocations _ => allocations
  | archiveStrategy _ allocations _ => allocations.getD []
  | commitProfitAllocationMutation args => nextTotals args.next
  | compoundHeldAllocations _ => []

def components : Call → Record AllocationComponent
  | commitRebalance args => args.allocationComponents.getD []
  | commitFeeCollection args => args.allocationComponents.getD []
  | commitHoldQuote _ _ _ => []
  | archiveStrategy _ _ _ => []
  | commitProfitAllocationMutation args => lowered args.next
  | compoundHeldAllocations _ => []

def compounds : Call → Bool
  | compoundHeldAllocations _ => true
  | _ => false

end Call

/-- What the last commit that wrote a token's total declared, and the held fees reclassified since. -/
structure Standing where
  principal : ℤ
  classified : Bool
  reclassified : ℤ
  deriving DecidableEq, Repr

structure Audited where
  store : AllocationStore
  standing : StrategyId → Address → Standing

/-- The held fee `compoundHeldAllocations` moves: that of a row which makes up the total. -/
def reclassifiedFee (store : AllocationStore) (strategyId : StrategyId) (token : Address) : ℤ :=
  match storedComponent store strategyId token, strategyAllocation store strategyId token with
  | some parts, some total => if parts.total = total then parts.heldFee else 0
  | _, _ => 0

def Call.record (call : Call) (store : AllocationStore) (standing : StrategyId → Address → Standing) (owner : StrategyId)
    (token : Address) : Standing :=
  if owner ≠ call.strategyId then standing owner token
  else if call.compounds then
    { standing owner token with reclassified := (standing owner token).reclassified + reclassifiedFee store owner token }
  else match lastFor call.allocations token, lastFor call.components token with
    | none, _ => standing owner token
    | some _, some parts => ⟨parts.principal, true, 0⟩
    | some _, none => ⟨0, false, 0⟩

def audit (state : Audited) (call : Call) : Audited :=
  match call.program.run state.store with
  | (.ok _, store) => { store, standing := call.record state.store state.standing }
  | (.error _, store) => { state with store }

/-- Parts that are not negative and make up the total, no principal beyond what was declared and
reclassified, and wholly held what was written without components. -/
structure Fits (parts : AllocationComponent) (total : ℤ) (standing : Standing) : Prop where
  nonNegative : parts.NonNegative
  makes : parts.total = total
  principal : parts.principal ≤ standing.principal + standing.reclassified
  unclassified : standing.classified = false → standing.reclassified = 0 → parts = .held total

def PartsHold (state : Audited) : Prop :=
  ∀ owner token total, strategyAllocation state.store owner token = some total →
    ∃ parts, strategyAllocationComponents state.store owner token = some parts ∧ Fits parts total (state.standing owner token)

/-- No total that is written is negative, and none is written without components while a component row with
other parts makes it up. -/
def NoCoincidence (state : Audited) (call : Call) : Prop :=
  ∀ entry ∈ call.allocations, ∀ total ∈ lastFor call.allocations entry.1.toLowerCase, 0 ≤ total ∧
    (lastFor call.components entry.1.toLowerCase = none →
      ∀ parts ∈ storedComponent state.store call.strategyId entry.1.toLowerCase, parts.total = total → parts = .held total)

instance (state : Audited) (call : Call) : Decidable (NoCoincidence state call) := by
  unfold NoCoincidence
  infer_instance

structure TokenHolds (state : Audited) (owner : StrategyId) (token : Address) : Prop where
  principal : 0 ≤ (state.standing owner token).principal
  reclassified : 0 ≤ (state.standing owner token).reclassified
  fits : ∀ total, strategyAllocation state.store owner token = some total →
    Fits (classify (storedComponent state.store owner token) total) total (state.standing owner token)

variable {state : Audited}

theorem partsHold_of_tokens (tokens : ∀ owner token, TokenHolds state owner token) : PartsHold state := by
  intro owner token total read
  refine ⟨classify (storedComponent state.store owner token) total, ?_, (tokens owner token).fits total read⟩
  unfold strategyAllocationComponents
  rw [read]
  rfl

variable {owner : StrategyId} {token : Address}

theorem storedComponent_nonNegative {store : AllocationStore} {parts : AllocationComponent}
    (read : storedComponent store owner token = some parts) : parts.NonNegative := by
  obtain ⟨row, _, rfl⟩ := Option.map_eq_some_iff.mp read
  exact row.nonNegative

theorem held_fits {total : ℤ} {standing : Standing} (nonNegative : 0 ≤ total) (principal : 0 ≤ standing.principal)
    (reclassified : 0 ≤ standing.reclassified) : Fits (.held total) total standing where
  nonNegative := ⟨le_refl 0, nonNegative, le_refl 0⟩
  makes := by simp [AllocationComponent.held, AllocationComponent.total]
  principal := add_nonneg principal reclassified
  unclassified _ _ := rfl

theorem TokenHolds.frame {state state' : Audited} (holds : TokenHolds state owner token)
    (allocation : strategyAllocation state'.store owner token = strategyAllocation state.store owner token)
    (component : storedComponent state'.store owner token = storedComponent state.store owner token)
    (standing : state'.standing owner token = state.standing owner token) : TokenHolds state' owner token where
  principal := standing ▸ holds.principal
  reclassified := standing ▸ holds.reclassified
  fits total read := by
    rw [standing, component]
    exact holds.fits total (allocation ▸ read)

theorem declared_holds {total : ℤ} {parts : AllocationComponent}
    (nonNegative : 0 ≤ total) (allocation : strategyAllocation state.store owner token = some total)
    (component : storedComponent state.store owner token = some parts)
    (standing : state.standing owner token = ⟨parts.principal, true, 0⟩) : TokenHolds state owner token := by
  have signs := storedComponent_nonNegative component
  refine ⟨?_, ?_, fun other read => ?_⟩
  · rw [standing]
    exact signs.1
  · rw [standing]
  · cases allocation.symm.trans read
    rw [component, standing]
    simp only [classify, signs, true_and]
    split
    · rename_i makes
      exact ⟨signs, makes, by simp, fun impossible => by cases impossible⟩
    · exact held_fits nonNegative signs.1 (le_refl 0)

theorem undeclared_holds {total : ℤ} (nonNegative : 0 ≤ total)
    (allocation : strategyAllocation state.store owner token = some total)
    (component : ∀ parts ∈ storedComponent state.store owner token, parts.total = total → parts = .held total)
    (standing : state.standing owner token = ⟨0, false, 0⟩) : TokenHolds state owner token := by
  refine ⟨?_, ?_, fun other read => ?_⟩
  · rw [standing]
  · rw [standing]
  · cases allocation.symm.trans read
    have held : classify (storedComponent state.store owner token) total = .held total := by
      cases stored : storedComponent state.store owner token with
      | none => rfl
      | some parts =>
        unfold classify
        dsimp only
        split
        · rename_i makes
          exact component parts stored makes.2
        · rfl
    rw [held, standing]
    exact held_fits nonNegative (le_refl 0) (le_refl 0)

theorem compound_total (parts : AllocationComponent) : parts.compound.total = parts.total := by
  simp [AllocationComponent.compound, AllocationComponent.total]

theorem compounded_holds {state state' : Audited} (holds : TokenHolds state owner token)
    (allocation : strategyAllocation state'.store owner token = strategyAllocation state.store owner token)
    (component : storedComponent state'.store owner token = (storedComponent state.store owner token).map .compound)
    (standing : state'.standing owner token = { state.standing owner token with
      reclassified := (state.standing owner token).reclassified + reclassifiedFee state.store owner token }) :
    TokenHolds state' owner token := by
  cases stored : storedComponent state.store owner token with
  | none =>
    have none : reclassifiedFee state.store owner token = 0 := by
      unfold reclassifiedFee
      rw [stored]
    refine holds.frame allocation (by rw [component, stored]; rfl) ?_
    rw [standing, none, add_zero]
  | some parts =>
    have signs := storedComponent_nonNegative stored
    have compounded := compound_nonNegative signs
    rw [stored, Option.map_some] at component
    have fee : 0 ≤ reclassifiedFee state.store owner token := by
      unfold reclassifiedFee
      rw [stored]
      split
      · rename_i same _
        cases same
        split
        · exact signs.2.1
        · exact le_refl 0
      · exact le_refl 0
    refine ⟨?_, ?_, fun total read => ?_⟩
    · rw [standing]
      exact holds.principal
    · rw [standing]
      exact add_nonneg holds.reclassified fee
    · rw [allocation] at read
      have before := holds.fits total read
      rw [stored] at before
      rw [component, standing]
      unfold reclassifiedFee
      rw [stored, read]
      simp only [classify, signs, compounded, compound_total, true_and] at before ⊢
      by_cases makes : parts.total = total
      · simp only [makes, if_true] at before ⊢
        refine ⟨compounded, (compound_total parts).trans makes, ?_, fun unclassified none => ?_⟩
        · have principal := before.principal
          dsimp only [AllocationComponent.compound]
          omega
        · have reclassified := holds.reclassified
          have heldFee := signs.2.1
          have moved : (state.standing owner token).reclassified + parts.heldFee = 0 := none
          have same := before.unclassified unclassified (by omega)
          rw [same] at moved ⊢
          have zero : total = 0 := by
            change _ + total = 0 at moved
            rw [same] at heldFee
            change 0 ≤ total at heldFee
            omega
          rw [zero]
          rfl
      · simp only [makes, if_false, add_zero] at before ⊢
        exact before

def compounded (strategyId : StrategyId) (store : AllocationStore) : AllocationStore :=
  { store with components := store.components.adjust (ComponentRow.compound strategyId) (compound_key strategyId) }

theorem compounded_component (strategyId owner : StrategyId) (token : Address) (store : AllocationStore) :
    storedComponent (compounded strategyId store) owner token =
      (storedComponent store owner token).map (if owner = strategyId then AllocationComponent.compound else id) := by
  unfold storedComponent compounded
  rw [Table.get?_adjust, Option.map_map, Option.map_map]
  refine Option.map_congr fun row found => ?_
  have key := Table.get?_key (Option.mem_def.mp found)
  have own : row.strategyId = owner := congrArg (fun k => (ofLex k).1) key
  dsimp only [Function.comp, ComponentRow.compound]
  rw [own]
  split <;> rfl

theorem call_spec (call : Call) (store : AllocationStore) :
    Triple (· = store) call.program
      (fun _ after => if call.compounds then after = compounded call.strategyId store
        else Writes call.strategyId call.allocations call.components store after)
      (· = store) := by
  cases call with
  | commitRebalance args => exact commitRebalance_spec args store
  | commitFeeCollection args => exact commitFeeCollection_spec args store
  | commitHoldQuote strategyId allocations rest => exact commitHoldQuote_spec strategyId allocations rest store
  | archiveStrategy strategyId allocations rest => exact archiveStrategy_spec strategyId allocations rest store
  | commitProfitAllocationMutation args =>
    refine triple_weaken (mutation_spec args store) (fun _ same => same) (fun _ after mutation => ?_) fun _ refused => refused.2
    obtain ⟨_, components, written, rfl⟩ := mutation
    exact mutated_writes written
  | compoundHeldAllocations strategyId => exact triple_write fun _ same => by rw [same]; rfl

theorem written_holds {call : Call} {after : AllocationStore}
    (holds : TokenHolds state owner token) (apart : NoCoincidence state call) (plain : call.compounds = false)
    (writes : Writes call.strategyId call.allocations call.components state.store after) :
    TokenHolds ⟨after, call.record state.store state.standing⟩ owner token := by
  have allocation := writes.allocation owner token
  have component := writes.component owner token
  by_cases own : owner = call.strategyId
  · rw [if_pos own] at allocation component
    have standing : call.record state.store state.standing owner token =
        match lastFor call.allocations token, lastFor call.components token with
        | none, _ => state.standing owner token
        | some _, some parts => ⟨parts.principal, true, 0⟩
        | some _, none => ⟨0, false, 0⟩ := by
      unfold Call.record
      rw [if_neg (not_not.mpr own), plain]
      rfl
    cases written : lastFor call.allocations token with
    | none =>
      have silent : lastFor call.components token = none := by
        by_contra declared
        have covers := writes.covered token (Option.isSome_iff_ne_none.mpr declared)
        rw [written] at covers
        cases covers
      rw [written, Option.none_or] at allocation
      rw [silent, Option.none_or] at component
      rw [written] at standing
      exact holds.frame allocation component standing
    | some total =>
      obtain ⟨entry, member, spelled⟩ := lastFor_isSome.mp (by rw [written]; rfl : (lastFor call.allocations token).isSome)
      obtain ⟨nonNegative, coincidence⟩ := apart entry member total (by rw [spelled]; exact written)
      rw [spelled, ← own] at coincidence
      rw [written, Option.some_or] at allocation
      rw [written] at standing
      cases declared : lastFor call.components token with
      | some parts =>
        rw [declared, Option.some_or] at component
        rw [declared] at standing
        exact declared_holds nonNegative allocation component standing
      | none =>
        rw [declared, Option.none_or] at component
        rw [declared] at standing
        exact undeclared_holds nonNegative allocation (component ▸ coincidence declared) standing
  · rw [if_neg own, Option.none_or] at allocation component
    exact holds.frame allocation component (if_pos own)

theorem compoundedCall_holds {call : Call}
    (holds : TokenHolds state owner token) (compounds : call.compounds = true) :
    TokenHolds ⟨compounded call.strategyId state.store, call.record state.store state.standing⟩ owner token := by
  have component := compounded_component call.strategyId owner token state.store
  by_cases own : owner = call.strategyId
  · rw [if_pos own] at component
    refine compounded_holds holds rfl component ?_
    change call.record state.store state.standing owner token = _
    unfold Call.record
    rw [if_neg (not_not.mpr own), compounds]
    rfl
  · rw [if_neg own, Option.map_id, id] at component
    exact holds.frame rfl component (if_pos own)

theorem audit_holds {call : Call} (holds : ∀ owner token, TokenHolds state owner token)
    (apart : NoCoincidence state call) (owner : StrategyId) (token : Address) : TokenHolds (audit state call) owner token := by
  have spec := call_spec call state.store state.store rfl
  unfold audit
  rcases ran : call.program.run state.store with ⟨outcome, after⟩
  rw [ran] at spec
  cases outcome with
  | error e =>
    have same : after = state.store := spec
    rw [same]
    exact holds owner token
  | ok =>
    dsimp only at spec ⊢
    split at spec
    · rename_i compounds
      rw [spec]
      exact compoundedCall_holds (holds owner token) compounds
    · rename_i plain
      exact written_holds (holds owner token) apart (Bool.eq_false_iff.mpr plain) spec

def unallocated (strategies : Table StrategyRow.id) : Audited where
  store := ⟨strategies, Table.empty, Table.empty, []⟩
  standing _ _ := ⟨0, false, 0⟩

/-- While no total written without components coincides with a component row of an earlier commit, every
order of the operations leaves parts that fit. -/
theorem parts_hold_run {strategies : Table StrategyRow.id} {calls : List Call}
    (apart : Along audit NoCoincidence (unallocated strategies) calls) : PartsHold (run audit (unallocated strategies) calls) := by
  have step : ∀ (state : Audited) (call : Call), (∀ owner token, TokenHolds state owner token) → NoCoincidence state call →
      ∀ owner token, TokenHolds (audit state call) owner token := fun _ _ => audit_holds
  refine partsHold_of_tokens (run_keeps step (fun owner token => ?_) apart)
  exact ⟨le_refl 0, le_refl 0, fun total read => by cases read⟩

def strategySeven : Table StrategyRow.id := Table.empty.put ⟨7, some 1, false⟩

/-- A rebalance declares 60 principal and 40 held of a token, the income is marked for compounding, and the
position is later exited to a different total. -/
def exited : List Call :=
  [.commitRebalance ⟨7, [(⟨5, 0⟩, 100)], some [(⟨5, 1⟩, ⟨60, 40, 0⟩)], .ok ()⟩, .compoundHeldAllocations 7,
    .commitHoldQuote 7 [(⟨5, 0⟩, 120)] (.ok ())]

theorem parts_hold_run_exited :
    Along audit NoCoincidence (unallocated strategySeven) exited ∧ PartsHold (run audit (unallocated strategySeven) exited) ∧
      strategyAllocationComponents (run audit (unallocated strategySeven) exited).store 7 5 = some ⟨0, 120, 0⟩ :=
  ⟨by decide, parts_hold_run (by decide), by decide⟩

/-- The exit writes the total the rebalance had written: its principal is back. -/
theorem parts_revived_by_exit :
    let calls : List Call := [.commitRebalance ⟨7, [(⟨5, 0⟩, 100)], some [(⟨5, 0⟩, ⟨60, 40, 0⟩)], .ok ()⟩,
      .commitHoldQuote 7 [(⟨5, 0⟩, 100)] (.ok ())]
    strategyAllocationComponents (run audit (unallocated strategySeven) calls).store 7 5 = some ⟨60, 40, 0⟩ ∧
      (run audit (unallocated strategySeven) calls).standing 7 5 = ⟨0, false, 0⟩ ∧
      ¬ PartsHold (run audit (unallocated strategySeven) calls) := by
  refine ⟨by decide, by decide, fun holds => ?_⟩
  obtain ⟨parts, read, fits⟩ := holds 7 5 100 (by decide)
  have revived : parts = ⟨60, 40, 0⟩ := Option.some.inj (read.symm.trans (by decide))
  have held := fits.unclassified (by decide) (by decide)
  rw [revived] at held
  exact absurd held (by decide)

end LpTerminal.Allocations
