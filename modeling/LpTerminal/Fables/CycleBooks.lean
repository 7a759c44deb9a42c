import LpTerminal.Fables.CycleLaw
import Mathlib.Tactic.Ring

/-!
The books of a cycle: its wallet is the baseline, with what the mined transactions moved and without all the
gas they burnt. They hold through every change of the rows.
-/

namespace LpTerminal.Fables

open Durable Store

variable {env : SignerEnv} {chain : Hash → FablesReceipt} {moved : Hash → FablesAmounts} {key : Currencies} {id : JobId}
  {s t : CycleState} {amount other : FablesJobTx → ℤ}

def Fixed (amount : FablesJobTx → ℤ) : Prop :=
  ∀ edit, RowEdit edit → ∀ tx, amount (edit tx) = amount tx

variable {edit : FablesJobTx → FablesJobTx}

theorem RowEdit.ordinal (same : RowEdit edit) (tx : FablesJobTx) : (edit tx).ordinal = tx.ordinal :=
  congrArg (fun key => (ofLex key).2) (same.key tx)

theorem RowEdit.jobId (same : RowEdit edit) (tx : FablesJobTx) : (edit tx).jobId = tx.jobId :=
  congrArg (fun key => (ofLex key).1) (same.key tx)

theorem total_same (rows : t.rows = s.rows) (mined : t.mined = s.mined) (amount : FablesJobTx → ℤ) : t.total amount = s.total amount := by
  unfold CycleState.total
  rw [rows, mined]

theorem total_edit (same : RowEdit edit) (rows : t.rows = s.rows.adjust edit same.key)
    (mined : t.mined = s.mined) (fixed : Fixed amount) : t.total amount = s.total amount := by
  unfold CycleState.total
  rw [rows, mined, Table.total_adjust same.key (fixed edit same)]
  exact Table.total_congr fun tx _ => congrArg s.mined.contains (same.ordinal tx)

theorem total_put_fresh {tx : FablesJobTx} (rows : t.rows = s.rows.put tx) (mined : t.mined = s.mined) (fresh : s.rows.get? tx.key = none)
    (apart : tx.ordinal ∉ s.mined) : t.total amount = s.total amount := by
  unfold CycleState.total
  rw [rows, mined, Table.total_put, if_neg (by simpa using apart), zero_add]
  refine Table.total_congr fun row member => ?_
  have others : row.key ≠ tx.key := fun same => by
    have found := Table.get?_of_mem member
    rw [same, fresh] at found
    cases found
  simp [others]

theorem total_mine {ordinal : Nat} {tx : FablesJobTx} (own : ∀ row ∈ s.rows.rows, row.jobId = id) (rows : t.rows = s.rows)
    (mined : t.mined = ordinal :: s.mined) (read : s.rows.get? (toLex (id, ordinal)) = some tx) (fresh : ordinal ∉ s.mined) :
    t.total amount = amount tx + s.total amount := by
  have keys : ∀ row ∈ s.rows.rows, row.key = toLex (id, ordinal) ↔ row.ordinal = ordinal := by
    refine fun row member => ⟨fun same => congrArg (fun key => (ofLex key).2) same, fun same => ?_⟩
    unfold FablesJobTx.key
    rw [own row member, same]
  unfold CycleState.total
  rw [rows, mined, Table.total_split fun row => row.key = toLex (id, ordinal)]
  congr 1
  · have chosen : s.rows.total (fun row => (ordinal :: s.mined).contains row.ordinal && decide (row.key = toLex (id, ordinal))) amount =
        s.rows.total (fun row => row.key = toLex (id, ordinal)) amount := Table.total_congr fun row member => by
      by_cases here : row.ordinal = ordinal <;> simp [keys row member, here]
    rw [chosen, Table.total_key, read]
    rfl
  · refine Table.total_congr fun row member => ?_
    by_cases here : row.ordinal = ordinal
    · simp [keys row member, here, fresh]
    · simp [keys row member, here]

theorem total_congr (same : ∀ tx ∈ s.rows.rows, tx.ordinal ∈ s.mined → amount tx = other tx) : s.total amount = s.total other := by
  unfold CycleState.total Table.total
  refine congrArg List.sum (List.map_congr_left fun tx member => ?_)
  obtain ⟨inside, chosen⟩ := List.mem_filter.mp member
  exact same tx inside (by simpa using chosen)

theorem total_add : s.total (fun tx => amount tx + other tx) = s.total amount + s.total other :=
  List.sum_map_add

theorem total_only {tx : FablesJobTx} (member : tx ∈ s.rows.rows) (mined : tx.ordinal ∈ s.mined)
    (only : ∀ row ∈ s.rows.rows, row.ordinal ∈ s.mined → row ≠ tx → amount row = 0) : s.total amount = amount tx := by
  unfold CycleState.total
  rw [Table.total_split fun row => row.key = tx.key]
  have others : s.rows.total (fun row => s.mined.contains row.ordinal && !decide (row.key = tx.key)) amount = 0 := by
    refine List.sum_eq_zero fun value inside => ?_
    obtain ⟨row, chosen, rfl⟩ := List.mem_map.mp inside
    obtain ⟨inside, apart⟩ := List.mem_filter.mp chosen
    simp only [Bool.and_eq_true, Bool.not_eq_true', decide_eq_false_iff_not, List.contains_iff_mem] at apart
    exact only row inside apart.1 fun same => apart.2 (by rw [same])
  have own : s.rows.total (fun row => s.mined.contains row.ordinal && decide (row.key = tx.key)) amount = amount tx := by
    have chosen : s.rows.total (fun row => s.mined.contains row.ordinal && decide (row.key = tx.key)) amount =
        s.rows.total (fun row => row.key = tx.key) amount := Table.total_congr fun row inside => by
      by_cases here : row.key = tx.key
      · rw [Table.eq_of_key inside member here]
        simp [mined]
      · simp [here]
    rw [chosen, Table.total_key, Table.get?_of_mem member]
    rfl
  rw [others, own, add_zero]

/-- Where a transaction of stage `landed` can have succeeded by the time its job is at `stage`. -/
def outlives (landed stage : FablesJobStage) (done : Bool) : Bool :=
  match landed, stage with
  | .precheck, _ | .balance, _ | .verify, _ => false
  | .feeConversion, .feeConversion => true
  | .feeConversion, _ => done
  | .swap, .swap | .swap, .depositApproval | .swap, .deposit | .swap, .verify => true
  | .swap, _ => false
  | .deposit, .deposit | .deposit, .verify => true
  | .deposit, _ => false
  | _, _ => true

def FablesTxState.standing : FablesTxState → Bool
  | .failed | .reviewed => false
  | _ => true

/-- The amounts miss the gas, where it is paid in their currency. -/
structure Short (key : Currencies) (gas : ℤ) (taken paid : FablesAmounts) : Prop where
  amount0 : taken.amount0 = paid.amount0 - gasIn key.currency0 gas
  amount1 : taken.amount1 = paid.amount1 - gasIn key.currency1 gas

def CycleState.gas (chain : Hash → FablesReceipt) (s : CycleState) : ℤ :=
  s.total fun tx => (chain tx.hash).facts.cost

structure Staged (chain : Hash → FablesReceipt) (moved : Hash → FablesAmounts) (key : Currencies) (s : CycleState) (lost : ℤ)
    (stage : FablesJobStage) (context : FablesJobContext) : Prop where
  current : ∀ tx ∈ s.rows.rows, tx.state.unresolved → tx.stage = stage
  unsigned : stage = .precheck → s.rows.rows = []
  exits : stage = .exit → ∀ tx ∈ s.rows.rows, tx.stage = .exit
  balance : stage ≠ .precheck → ∃ baseline, context.baseline = some baseline ∧
    s.wallet.amount0 = baseline.amount0 + s.total (fun tx => (payout chain moved tx).amount0) - gasIn key.currency0 (s.gas chain) ∧
    s.wallet.amount1 = baseline.amount1 + s.total (fun tx => (payout chain moved tx).amount1) - gasIn key.currency1 (s.gas chain)
  landed : ∀ tx ∈ s.rows.rows, tx.ordinal ∈ s.mined → (chain tx.hash).status = .success → outlives tx.stage stage context.feeConversionDone
  early : stage = .precheck ∨ stage = .exit ∨ stage = .claim → context.feeConversionDone = false
  stored : context.feeConversionDone = true ∨ stage = .feeConversionApproval ∨ stage = .feeConversion →
    ∃ realized, context.realized = some realized ∧ Short key lost realized (s.paidOut chain moved)

structure Tracked (chain : Hash → FablesReceipt) (moved : Hash → FablesAmounts) (key : Currencies) (id : JobId) (s : CycleState) : Prop where
  own : ∀ tx ∈ s.rows.rows, tx.jobId = id
  sends : ∀ tx ∈ s.rows.rows, tx.stage.sends
  known : ∀ ordinal ∈ s.mined, ∃ tx ∈ s.rows.rows, tx.ordinal = ordinal
  final : ∀ tx ∈ s.rows.rows, tx.state.unresolved = false → tx.ordinal ∈ s.mined ∧ (tx.state = .confirmed ↔ (chain tx.hash).status = .success)
  alone : ∀ first ∈ s.rows.rows, ∀ second ∈ s.rows.rows, first.state.standing → second.state.standing → first.stage = second.stage →
    first.stage.approval = false → first = second
  job : ∃ stage context, (view s.runtime.store).2 id = some (stage, context) ∧ Staged chain moved key s s.lost stage context

theorem payout_edit (same : RowEdit edit) (tx : FablesJobTx) :
    payout chain moved (edit tx) = payout chain moved tx := by
  unfold payout
  rw [same.hash, same.stage]

theorem payout_fixed0 : Fixed fun tx => (payout chain moved tx).amount0 :=
  fun _ same tx => congrArg FablesAmounts.amount0 (payout_edit same tx)

theorem payout_fixed1 : Fixed fun tx => (payout chain moved tx).amount1 :=
  fun _ same tx => congrArg FablesAmounts.amount1 (payout_edit same tx)

theorem paid_fixed {amount : FablesJobTx → ℤ} (fixed : Fixed amount) : Fixed fun tx => if tx.stage.pays then amount tx else 0 := by
  intro edit same tx
  dsimp only
  rw [same.stage, fixed edit same tx]

theorem gas_fixed : Fixed fun tx => ((chain tx.hash).facts.cost : ℤ) := by
  intro edit same tx
  dsimp only
  rw [same.hash]

theorem paidOut_congr (each : ∀ amount, Fixed amount → t.total amount = s.total amount) :
    t.paidOut chain moved = s.paidOut chain moved := by
  unfold CycleState.paidOut
  rw [each _ (paid_fixed payout_fixed0), each _ (paid_fixed payout_fixed1)]

variable {mined : List Nat} {tx : FablesJobTx} {state : FablesTxState}

theorem Closes.unresolved (closes : Closes chain mined tx state) (opened : state.unresolved) : tx.state.unresolved := by
  rcases closes with turn | ⟨_, final⟩
  · exact turn.unresolved.symm.trans opened
  · rw [final] at opened
    cases status : (chain tx.hash).status <;> rw [status] at opened <;> cases opened

theorem Closes.final (closes : Closes chain mined tx state)
    (final : tx.state.unresolved = false → tx.ordinal ∈ mined ∧ (tx.state = .confirmed ↔ (chain tx.hash).status = .success))
    (closed : state.unresolved = false) : tx.ordinal ∈ mined ∧ (state = .confirmed ↔ (chain tx.hash).status = .success) := by
  rcases closes with turn | ⟨included, final⟩
  · cases turn with
    | stays => exact final closed
    | sent => cases closed
    | reviewed failed =>
      rw [failed] at final
      obtain ⟨included, unsuccessful⟩ := final rfl
      exact ⟨included, ⟨nofun, fun success => nomatch unsuccessful.mpr success⟩⟩
  · refine ⟨included, ?_⟩
    rw [final]
    cases (chain tx.hash).status <;> simp [FablesReceiptStatus.finalState]

theorem Closes.standing (closes : Closes chain mined tx state)
    (final : tx.state.unresolved = false → tx.ordinal ∈ mined ∧ (tx.state = .confirmed ↔ (chain tx.hash).status = .success))
    (stands : state.standing) : tx.state.standing := by
  rcases closes with turn | ⟨_, last⟩
  · cases turn with
    | stays => exact stands
    | sent opened =>
      cases here : tx.state <;> rw [here] at opened <;> first | rfl | cases opened
    | reviewed => cases stands
  · rw [last] at stands
    have success : (chain tx.hash).status = .success := by
      cases status : (chain tx.hash).status with
      | success => rfl
      | reverted =>
        rw [status] at stands
        cases stands
    cases here : tx.state with
    | sending | sent | confirmed => rfl
    | failed | reviewed =>
      rw [here] at final
      exact nomatch (final rfl).2.mpr success

theorem tracked_edits (tracked : Tracked chain moved key id s) (edits : Edits (Closes chain s.mined) s.runtime.store t.runtime.store)
    (same : t.mined = s.mined ∧ t.wallet = s.wallet ∧ t.lost = s.lost) : Tracked chain moved key id t := by
  obtain ⟨edit, kept, shown, turns⟩ := edits
  obtain ⟨mined, wallet, lost⟩ := same
  have rows : t.rows = s.rows.adjust edit kept.key := congrArg Prod.fst shown
  have each : ∀ tx ∈ t.rows.rows, ∃ old ∈ s.rows.rows, edit old = tx := by
    intro tx member
    rw [rows] at member
    exact List.mem_map.mp member
  have sums : ∀ amount, Fixed amount → t.total amount = s.total amount := fun amount fixed => total_edit kept rows mined fixed
  refine ⟨fun tx member => ?_, fun tx member => ?_, fun ordinal member => ?_, fun tx member => ?_, fun first left second right => ?_, ?_⟩
  · obtain ⟨old, inside, rfl⟩ := each tx member
    exact (kept.jobId old).trans (tracked.own old inside)
  · obtain ⟨old, inside, rfl⟩ := each tx member
    rw [kept.stage]
    exact tracked.sends old inside
  · rw [mined] at member
    obtain ⟨tx, inside, named⟩ := tracked.known ordinal member
    refine ⟨edit tx, ?_, (kept.ordinal tx).trans named⟩
    rw [rows]
    exact List.mem_map_of_mem inside
  · obtain ⟨old, inside, rfl⟩ := each tx member
    rw [kept.ordinal, kept.hash, mined]
    exact (turns old inside).final (tracked.final old inside)
  · obtain ⟨old, inside, rfl⟩ := each first left
    obtain ⟨older, insideToo, rfl⟩ := each second right
    rw [kept.stage, kept.stage]
    exact fun stands standsToo stage approval => congrArg edit (tracked.alone old inside older insideToo
      ((turns old inside).standing (tracked.final old inside) stands)
      ((turns older insideToo).standing (tracked.final older insideToo) standsToo) stage approval)
  · obtain ⟨stage, context, job, staged⟩ := tracked.job
    refine ⟨stage, context, (congrFun (congrArg Prod.snd shown) id).trans job, ?_⟩
    refine ⟨fun tx member => ?_, fun nothing => ?_, fun exiting tx member => ?_, fun away => ?_, fun tx member => ?_, staged.early, fun done => ?_⟩
    · obtain ⟨old, inside, rfl⟩ := each tx member
      rw [kept.stage]
      exact fun opened => staged.current old inside ((turns old inside).unresolved opened)
    · rw [rows]
      exact List.map_eq_nil_iff.mpr (staged.unsigned nothing)
    · obtain ⟨old, inside, rfl⟩ := each tx member
      exact (kept.stage old).trans (staged.exits exiting old inside)
    · unfold CycleState.gas
      rw [wallet, sums _ payout_fixed0, sums _ payout_fixed1, sums _ gas_fixed]
      exact staged.balance away
    · obtain ⟨old, inside, rfl⟩ := each tx member
      rw [kept.ordinal, kept.hash, kept.stage, mined]
      exact staged.landed old inside
    · rw [lost, paidOut_congr sums]
      exact staged.stored done

theorem mem_rows_put {added : FablesJobTx} (rows : t.rows = s.rows.put added) (member : tx ∈ t.rows.rows) : tx = added ∨ tx ∈ s.rows.rows := by
  rw [rows] at member
  exact (Table.mem_put.mp member).imp_right And.left

theorem tracked_sign {added : FablesJobTx} (tracked : Tracked chain moved key id s)
    (closed : ∀ tx ∈ s.rows.rows, tx.state.unresolved = false) (own : added.jobId = id) (sends : added.stage.sends)
    (sending : added.state = .sending) (fresh : s.rows.get? added.key = none)
    (stage : ∀ stage context, (view s.runtime.store).2 id = some (stage, context) → added.stage = stage)
    (first : added.stage.approval ∨ ∀ tx ∈ s.rows.rows, tx.stage = added.stage → tx.state ≠ .confirmed)
    (shown : view t.runtime.store = (s.rows.put added, (view s.runtime.store).2))
    (same : t.mined = s.mined ∧ t.wallet = s.wallet ∧ t.lost = s.lost) : Tracked chain moved key id t := by
  obtain ⟨mined, wallet, lost⟩ := same
  have rows : t.rows = s.rows.put added := congrArg Prod.fst shown
  have apart : added.ordinal ∉ s.mined := by
    intro member
    obtain ⟨tx, inside, named⟩ := tracked.known _ member
    have same : tx.key = added.key := by
      unfold FablesJobTx.key
      rw [tracked.own tx inside, named, own]
    have found := Table.get?_of_mem inside
    rw [same, fresh] at found
    cases found
  have sums : ∀ amount, Fixed amount → t.total amount = s.total amount := fun _ _ => total_put_fresh rows mined fresh apart
  have fallen : ∀ tx ∈ s.rows.rows, tx.stage = added.stage → added.stage.approval = false → tx.state.standing = false := by
    intro tx inside stage approval
    rcases first with approves | none
    · rw [approval] at approves
      cases approves
    · have open_row := closed tx inside
      have confirmed := none tx inside stage
      cases here : tx.state <;> rw [here] at open_row confirmed
      · cases open_row
      · cases open_row
      · exact absurd rfl confirmed
      · rfl
      · rfl
  refine ⟨fun tx member => ?_, fun tx member => ?_, fun ordinal member => ?_, fun tx member => ?_, fun one left two right => ?_, ?_⟩
  · rcases mem_rows_put rows member with rfl | old
    · exact own
    · exact tracked.own tx old
  · rcases mem_rows_put rows member with rfl | old
    · exact sends
    · exact tracked.sends tx old
  · rw [mined] at member
    obtain ⟨tx, inside, named⟩ := tracked.known ordinal member
    refine ⟨tx, ?_, named⟩
    rw [rows]
    refine Table.mem_put.mpr (Or.inr ⟨inside, fun same => ?_⟩)
    have found := Table.get?_of_mem inside
    rw [same, fresh] at found
    cases found
  · rw [mined]
    rcases mem_rows_put rows member with rfl | old
    · rw [sending]
      exact fun final => nomatch final
    · exact tracked.final tx old
  · intro stands standsToo together approval
    rcases mem_rows_put rows left with rfl | old
    · rcases mem_rows_put rows right with rfl | older
      · rfl
      · rw [fallen two older together.symm approval] at standsToo
        cases standsToo
    · rcases mem_rows_put rows right with rfl | older
      · rw [fallen one old together (together ▸ approval)] at stands
        cases stands
      · exact tracked.alone one old two older stands standsToo together approval
  · obtain ⟨now, context, job, staged⟩ := tracked.job
    have ofStage := stage now context job
    refine ⟨now, context, (congrFun (congrArg Prod.snd shown) id).trans job, ?_⟩
    refine ⟨fun tx member => ?_, fun nothing => ?_, fun exiting tx member => ?_, fun away => ?_, fun tx member landed => ?_, staged.early, fun done => ?_⟩
    · rcases mem_rows_put rows member with rfl | old
      · exact fun _ => ofStage
      · exact staged.current tx old
    · rw [ofStage, nothing] at sends
      cases sends
    · rcases mem_rows_put rows member with rfl | old
      · exact ofStage.trans exiting
      · exact staged.exits exiting tx old
    · unfold CycleState.gas
      rw [wallet, sums _ payout_fixed0, sums _ payout_fixed1, sums _ gas_fixed]
      exact staged.balance away
    · rw [mined] at landed
      rcases mem_rows_put rows member with rfl | old
      · exact absurd landed apart
      · exact staged.landed tx old landed
    · rw [lost, paidOut_congr sums]
      exact staged.stored done

theorem outlives_own {stage : FablesJobStage} (sends : stage.sends) (done : Bool) : outlives stage stage done := by
  cases stage <;> first | rfl | cases sends

theorem gasIn_add (currency : Address) (first second : ℤ) : gasIn currency (first + second) = gasIn currency first + gasIn currency second := by
  unfold gasIn
  split <;> simp

theorem tracked_mined {ordinal : Nat} {row : FablesJobTx} (tracked : Tracked chain moved key id s)
    (read : s.rows.get? (toLex (id, ordinal)) = some row) (fresh : ordinal ∉ s.mined) (runtime : t.runtime = s.runtime)
    (mined : t.mined = ordinal :: s.mined) (lost : t.lost = s.lost)
    (wallet0 : t.wallet.amount0 = s.wallet.amount0 + (payout chain moved row).amount0 - gasIn key.currency0 (chain row.hash).facts.cost)
    (wallet1 : t.wallet.amount1 = s.wallet.amount1 + (payout chain moved row).amount1 - gasIn key.currency1 (chain row.hash).facts.cost) :
    Tracked chain moved key id t := by
  have rows : t.rows = s.rows := congrArg (fun r : Runtime => r.store.transactions) runtime
  have sums : ∀ amount : FablesJobTx → ℤ, t.total amount = amount row + s.total amount := fun _ =>
    total_mine tracked.own rows mined read fresh
  have member : row ∈ s.rows.rows := Table.get?_mem read
  have named : row.ordinal = ordinal := congrArg (fun key => (ofLex key).2) (Table.get?_key read)
  have opened : row.state.unresolved := by
    by_contra closed
    exact fresh (named ▸ (tracked.final row member (Bool.eq_false_iff.mpr closed)).1)
  obtain ⟨stage, context, job, staged⟩ := tracked.job
  have ofStage := staged.current row member opened
  refine ⟨?_, ?_, fun other inside => ?_, fun tx inside closed => ?_, ?_, stage, context, by rw [runtime]; exact job, ?_⟩
  · rw [rows]
    exact tracked.own
  · rw [rows]
    exact tracked.sends
  · rw [mined] at inside
    rw [rows]
    rcases List.mem_cons.mp inside with rfl | old
    · exact ⟨row, member, named⟩
    · exact tracked.known other old
  · rw [rows] at inside
    obtain ⟨included, status⟩ := tracked.final tx inside closed
    rw [mined]
    exact ⟨List.mem_cons_of_mem _ included, status⟩
  · rw [rows]
    exact tracked.alone
  refine ⟨?_, ?_, ?_, fun away => ?_, fun tx inside landed success => ?_, staged.early, fun done => ?_⟩
  · rw [rows]
    exact staged.current
  · rw [rows]
    exact staged.unsigned
  · rw [rows]
    exact staged.exits
  · obtain ⟨baseline, kept, before0, before1⟩ := staged.balance away
    unfold CycleState.gas at before0 before1 ⊢
    refine ⟨baseline, kept, ?_, ?_⟩
    · rw [wallet0, sums, sums, gasIn_add, before0]
      ring
    · rw [wallet1, sums, sums, gasIn_add, before1]
      ring
  · rw [rows] at inside
    rw [mined] at landed
    rcases List.mem_cons.mp landed with here | old
    · have same : tx = row := Table.eq_of_key inside member (by
        unfold FablesJobTx.key
        rw [tracked.own tx inside, tracked.own row member, here, named])
      rw [same, ofStage]
      exact outlives_own (ofStage ▸ tracked.sends row member) _
    · exact staged.landed tx inside old success
  · obtain ⟨realized, kept, short⟩ := staged.stored done
    -- the exit and the claim are paid before a realized amount is stored
    have later : row.stage.pays = false := by
      cases pays : row.stage.pays with
      | false => rfl
      | true =>
        rw [ofStage] at pays
        have early : stage = .exit ∨ stage = .claim := by
          cases stage <;> first | exact Or.inl rfl | exact Or.inr rfl | cases pays
        have notDone := staged.early (Or.inr early)
        rcases early with rfl | rfl <;> simp [notDone] at done
    have paid : ∀ amount : FablesJobTx → ℤ,
        t.total (fun tx => if tx.stage.pays then amount tx else 0) = s.total fun tx => if tx.stage.pays then amount tx else 0 := by
      intro amount
      rw [sums, later]
      simp
    refine ⟨realized, kept, ?_⟩
    rw [lost]
    unfold CycleState.paidOut
    rw [paid, paid]
    exact short

theorem tracked_mine (tracked : Tracked chain moved key id s) (ordinal : Nat) : Tracked chain moved key id (mine chain moved key id s ordinal) := by
  unfold mine
  cases read : s.rows.get? (toLex (id, ordinal)) with
  | none => exact tracked
  | some row =>
    dsimp only
    split
    · exact tracked
    · rename_i absent
      exact tracked_mined tracked read (by simpa using absent) rfl rfl rfl rfl rfl

end LpTerminal.Fables
