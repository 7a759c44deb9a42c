import LpTerminal.Recovery.SwapLegs

/-!
The wallet between two reads: every change of it is the effect of a mined transaction or a movement from
outside.
-/

namespace LpTerminal.WalletLaw

open Durable FeeTax Rebalance Receipts Store SwapJob SwapLegs

def flow {owner : Address} (chain : ChainFacts owner) (steps : Nat → Bool) (mined : List (Nat × Hash)) (token : Address) : ℤ :=
  ((mined.filter fun entry => steps entry.1).map fun entry => chain.moved entry.2 token).sum

def gasPaid {owner : Address} (chain : ChainFacts owner) (mined : List (Nat × Hash)) : ℤ :=
  (mined.map fun entry => (receiptGas (chain.receiptOf entry.2) : ℤ)).sum

def Accounted {owner : Address} (chain : ChainFacts owner) (pair : Pair) (baseline : Address → ℤ) (state : JobState) : Prop :=
  ∀ token, token = pair.token0 ∨ token = pair.token1 →
    state.wallet token = baseline token + (state.mined.map fun entry => chain.felt entry.2 token).sum

def Still (pair : Pair) (drift : Address → ℤ) : Prop :=
  drift pair.token0 = 0 ∧ drift pair.token1 = 0

/-- The operations of a job that no movement from outside interrupts keep the invariant. -/
structure Stable (job : Job) (chain : ChainFacts job.owner) (I : JobState → Prop) : Prop where
  journal : ∀ state journal, I state → I { state with journal }
  land : ∀ stepIndex hash state, I state → I (land job chain stepIndex hash state)
  plan : ∀ state swapPlan, I state → I { state with swapPlan }
  tax : ∀ state feeTax, I state → I { state with feeTax }
  settled : ∀ state settled, I state → I { state with settled }
  drift : ∀ state drift, Still job.pair drift → I state →
    I { state with wallet := fun token => state.wallet token + drift token }

theorem accounted_stable (job : Job) (chain : ChainFacts job.owner) (baseline : Address → ℤ) :
    Stable job chain (Accounted chain job.pair baseline) where
  journal _ _ holds := holds
  plan _ _ holds := holds
  tax _ _ holds := holds
  settled _ _ holds := holds
  land stepIndex hash state holds := by
    unfold SwapJob.land
    split
    · exact holds
    · intro token pairToken
      have before := holds token pairToken
      simp only [List.map_cons, List.sum_cons, before]
      omega
  drift state drift still holds := by
    rintro token (rfl | rfl)
    · simpa only [still.1, add_zero] using holds _ (Or.inl rfl)
    · simpa only [still.2, add_zero] using holds _ (Or.inr rfl)

theorem felt_sum {owner : Address} (chain : ChainFacts owner) (mined : List (Nat × Hash)) (token : Address) :
    (mined.map fun entry => chain.felt entry.2 token).sum =
      (mined.map fun entry => chain.moved entry.2 token).sum - (if token = zeroAddress then gasPaid chain mined else 0) := by
  unfold gasPaid
  induction mined with
  | nil => simp
  | cons entry rest ih =>
    rw [List.map_cons, List.sum_cons, ih, List.map_cons, List.sum_cons, List.map_cons, List.sum_cons]
    unfold ChainFacts.felt
    split <;> omega

theorem flow_split {owner : Address} (chain : ChainFacts owner) {first second : Nat} (apart : first ≠ second) {token : Address}
    {mined : List (Nat × Hash)}
    (others : ∀ entry ∈ mined, entry.1 ≠ first → entry.1 ≠ second → chain.moved entry.2 token = 0) :
    (mined.map fun entry => chain.moved entry.2 token).sum =
      flow chain (· = first) mined token + flow chain (· = second) mined token := by
  unfold flow
  induction mined with
  | nil => rfl
  | cons entry rest ih =>
    have tail := ih fun other member => others other (List.mem_cons_of_mem _ member)
    have head := others entry List.mem_cons_self
    simp only [List.map_cons, List.sum_cons, tail, List.filter_cons, decide_eq_true_eq]
    by_cases isFirst : entry.1 = first
    · have notSecond : ¬ entry.1 = second := isFirst ▸ apart
      simp only [isFirst, if_true, if_neg (isFirst ▸ notSecond : ¬ first = second), List.map_cons, List.sum_cons]
      omega
    · by_cases isSecond : entry.1 = second
      · simp only [isSecond, if_true, if_neg (isSecond ▸ isFirst : ¬ second = first), List.map_cons, List.sum_cons]
        omega
      · simp only [if_neg isFirst, if_neg isSecond, head isFirst isSecond]
        omega

section
variable {job : Job} {chain : ChainFacts job.owner} {I : JobState → Prop} (stable : Stable job chain I)
include stable

theorem keeps_note (mark : TransactionMark) : Keeps I (note mark) :=
  note_keeps fun state journal before _ => stable.journal state journal before

theorem keeps_settle (stepIndex txIndex : Nat) (state : JobState) (before : I state) : I (settle job stepIndex txIndex state) := by
  rw [settle_eq]
  exact stable.settled _ _ before

theorem keeps_trackedSend (stepIndex txIndex : Nat) (send : Send) :
    Keeps I (trackedSend job chain stepIndex txIndex send) :=
  trackedSend_keeps (fun _ _ _ => keeps_note stable _) (stable.land stepIndex) (keeps_settle stable stepIndex txIndex)

theorem keeps_allowances (sends : Except ErrorCode (List Send)) : Keeps I (allowances job chain sends) :=
  allowances_keeps (fun _ _ _ _ _ => keeps_note stable _) (stable.land 4) (keeps_settle stable 4) sends

theorem keeps_recordSwap (record : SwapPlanRecord) : Keeps I (recordSwap record) :=
  keeps_write fun state before => stable.plan state _ before

theorem keeps_driftWallet {drift : Address → ℤ} (still : Still job.pair drift) : Keeps I (driftWallet drift) :=
  keeps_write fun state before => stable.drift state drift still before

theorem keeps_sendRecoverySwap (txIndex : Nat) (intent : SwapIntent) (prepared : PreparedSwap) (send : Send) :
    Keeps I (sendRecoverySwap job chain txIndex intent prepared send) := by
  refine keeps_bind keeps_read fun state => ?_
  split
  · exact keeps_fail _
  · split
    · exact keeps_fail _
    · exact keeps_bind (keeps_recordSwap stable _) fun _ => keeps_trackedSend stable _ _ _

theorem keeps_runLeg (leg : SwapLeg) (nextSwapTx : Nat) {answer : LegReply} (still : Still job.pair answer.drift) :
    Keeps I (runLeg job chain leg nextSwapTx answer) := by
  refine keeps_bind keeps_read fun state => ?_
  split
  · exact keeps_bind (keeps_reply _) fun _ => keeps_pure _
  · refine keeps_bind (keeps_reply _) fun quotedOut => keeps_bind (keeps_recordSwap stable _) fun _ => ?_
    refine keeps_bind (keeps_allowances stable _) fun _ => keeps_bind (keeps_reply _) fun prepared => ?_
    refine keeps_bind keeps_read fun before => keeps_bind (keeps_sendRecoverySwap stable _ _ _ _) fun receipt => ?_
    refine keeps_bind (keeps_driftWallet stable still) fun _ => keeps_bind keeps_read fun after => ?_
    exact keeps_bind (keeps_reply _) fun _ => keeps_bind (keeps_allowances stable _) fun _ => keeps_pure _

theorem keeps_runTaxLegs (gasAdjusted : Bool) (nextSwapTx : Nat) (intents : List SwapIntent) (answers : List LegReply)
    (still : ∀ answer ∈ answers, Still job.pair answer.drift) :
    Keeps I (runTaxLegs job chain gasAdjusted nextSwapTx intents answers) := by
  induction intents generalizing nextSwapTx answers with
  | nil => exact keeps_pure _
  | cons intent rest ih =>
    cases answers with
    | nil => exact keeps_fail _
    | cons answer later =>
      refine keeps_bind (keeps_runLeg stable _ _ (still answer List.mem_cons_self)) fun result => ?_
      refine keeps_bind (ih _ later fun other member => still other (List.mem_cons_of_mem _ member)) fun _ => ?_
      exact keeps_pure _

theorem keeps_ensureTax (market : Market) (quote : QuoteFn) (fee0 fee1 : ℤ) :
    Keeps I (ensureTax job market quote fee0 fee1) := by
  refine keeps_bind keeps_read fun state => keeps_bind (keeps_reply _) fun result => ?_
  exact keeps_bind (keeps_write fun state before => stable.tax state _ before) fun _ => keeps_pure _

theorem stable_resolveSlots (landed : Hash → Bool) (state : JobState) (before : I state) :
    I (resolveSlots job chain landed state) := by
  refine resolveSlots_keeps before fun middle row _ _ kept => ?_
  unfold resolveRow
  split
  · split
    · exact stable.journal _ _ kept
    · rename_i hash _
      have landed := stable.land row.stepIndex hash middle kept
      dsimp only
      split
      · exact keeps_settle stable _ _ _ (stable.journal _ _ landed)
      · exact stable.journal _ _ landed
  · exact kept

end

end LpTerminal.WalletLaw
