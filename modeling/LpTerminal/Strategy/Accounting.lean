import LpTerminal.Lib.Fallible
import LpTerminal.Lib.SwapMath
import LpTerminal.Store.Jobs
import Mathlib.Data.Rat.Floor
import Mathlib.Tactic.FieldSimp

/-!
The amounts of a strategy's ledger: the pro-rata split of a total, the split of a collect receipt into principal, gross fee and
levy, and what they conserve.
-/

namespace LpTerminal.Accounting

open Fallible
open Store (LedgerEntryKind StrategyId)
open ConcentratedPool (ceilDiv ceilDiv_le_iff lt_ceilDiv_iff feeUnits)

inductive AccountingError
  | config (message : String)
  | positionChanged (message : String)
  deriving DecidableEq

def allocateRows : ℤ → ℤ → ℕ → List ℤ → List ℤ
  | _, _, _, [] => []
  | remainingTotal, remainingWeight, weightedRows, weight :: rest =>
    if weight = 0 then 0 :: allocateRows remainingTotal remainingWeight weightedRows rest
    else
      let allocated := if weightedRows - 1 = 0 then remainingTotal else (remainingTotal * weight).tdiv remainingWeight
      allocated :: allocateRows (remainingTotal - allocated) (remainingWeight - weight) (weightedRows - 1) rest

def allocateProRata (total : ℤ) (weights : List ℤ) : Except AccountingError (List ℤ) :=
  if total < 0 ∨ ∃ weight ∈ weights, weight < 0 then .error (.config "pro-rata accounting amounts must be unsigned")
  else if weights.sum = 0 then
    if total ≠ 0 then .error (.config "non-zero total requires a pro-rata basis") else .ok (weights.map fun _ => 0)
  else .ok (allocateRows total weights.sum (weights.countP fun weight => 0 < weight) weights)

structure LevyEstimate where
  grossFee : ℤ
  levy : ℤ

def estimateUnstakedLevy (netFee : ℤ) (levyPpm : ℚ) : Except AccountingError LevyEstimate :=
  if ¬ levyPpm.den = 1 ∨ levyPpm < 0 ∨ 1000000 ≤ levyPpm then .error (.config "invalid levy ppm")
  else if netFee = 0 ∨ levyPpm = 0 then .ok ⟨netFee, 0⟩
  else
    let denominator := 1000000 - levyPpm.num
    let grossFee := (netFee * 1000000 + denominator - 1).tdiv denominator
    .ok ⟨grossFee, grossFee - netFee⟩

/-- `${kind}-${token}-${entries.length}`. -/
structure CollectId where
  kind : LedgerEntryKind
  token : Address
  index : ℕ
  deriving DecidableEq

structure CollectEntry where
  id : CollectId
  strategyId : StrategyId
  cycleId : Option ℕ
  ts : ℕ
  txHash : Option Hash
  blockNumber : Option ℕ
  kind : LedgerEntryKind
  token : Address
  amount : ℤ
  estimated : Bool
  deriving DecidableEq

/-- An amount is what `BigInt` reads of its text, where it reads any. -/
structure CollectArgs where
  strategyId : StrategyId
  cycleId : Option ℕ
  ts : ℕ
  token0 : Address
  token1 : Address
  principal0 : Option ℤ
  principal1 : Option ℤ
  collected0 : Option ℤ
  collected1 : Option ℤ
  unstakedLevyPpm : Option ℚ
  txHash : Option Hash
  blockNumber : Option ℕ

def amount (read : Option ℤ) (name : String) : Except AccountingError ℤ :=
  match read with
  | none => .error (.config (name ++ " must be an unsigned integer string"))
  | some parsed => if parsed < 0 then .error (.config (name ++ " must be an unsigned integer string")) else .ok parsed

def add (args : CollectArgs) (kind : LedgerEntryKind) (token : Address) (raw : ℤ) (estimated : Bool) (entries : List CollectEntry) : List CollectEntry :=
  if 0 < raw then
    entries ++ [⟨⟨kind, token, entries.length⟩, args.strategyId, args.cycleId, args.ts, args.txHash, args.blockNumber, kind, token, raw, estimated⟩]
  else entries

def addFee (args : CollectArgs) (levyPpm : ℚ) (token : Address) (net : ℤ) (entries : List CollectEntry) : Except AccountingError (List CollectEntry) := do
  let estimate ← estimateUnstakedLevy net levyPpm
  let entries := add args .feeGross token estimate.grossFee (decide (0 < estimate.levy)) entries
  return add args .protocolFee token estimate.levy true entries

def attributeCollect (args : CollectArgs) : Except AccountingError (List CollectEntry) := do
  let p0 ← amount args.principal0 "principal0"
  let p1 ← amount args.principal1 "principal1"
  let c0 ← amount args.collected0 "collected0"
  let c1 ← amount args.collected1 "collected1"
  if c0 < p0 ∨ c1 < p1 then .error (.positionChanged "collect receipt is less than principal decrease")
  else
    let entries := add args .principalExit args.token0 p0 false []
    let entries := add args .principalExit args.token1 p1 false entries
    let levyPpm := args.unstakedLevyPpm.getD 0
    let entries ← addFee args levyPpm args.token0 (c0 - p0) entries
    addFee args levyPpm args.token1 (c1 - p1) entries

variable {total remaining weightLeft : ℤ} {weights rest : List ℤ} {shares : List ℤ}

structure Rows (remaining weightLeft : ℤ) (rows : ℕ) (rest : List ℤ) : Prop where
  unsigned : ∀ weight ∈ rest, 0 ≤ weight
  sum : weightLeft = rest.sum
  weighted : rows = rest.countP fun weight => 0 < weight
  left : 0 ≤ remaining
  spent : rows = 0 → remaining = 0

def shareOf (remaining weightLeft weight : ℤ) (rows : ℕ) : ℤ := if rows - 1 = 0 then remaining else (remaining * weight).tdiv weightLeft

variable {rows : ℕ}

theorem Rows.skip (held : Rows remaining weightLeft rows (0 :: rest)) : Rows remaining weightLeft rows rest where
  unsigned weight member := held.unsigned weight (List.mem_cons_of_mem _ member)
  sum := by simpa using held.sum
  weighted := by simpa using held.weighted
  left := held.left
  spent := held.spent

variable {weight : ℤ}

section

variable (held : Rows remaining weightLeft rows (weight :: rest))
include held

theorem Rows.positive (some' : weight ≠ 0) : 0 < weight :=
  lt_of_le_of_ne (held.unsigned weight List.mem_cons_self) (Ne.symm some')

theorem Rows.count (some' : weight ≠ 0) :
    rows - 1 = rest.countP fun weight => 0 < weight := by
  have weighted := held.weighted
  rw [List.countP_cons_of_pos (by simpa using held.positive some')] at weighted
  omega

theorem Rows.rest_nonneg : 0 ≤ rest.sum :=
  List.sum_nonneg fun other member => held.unsigned other (List.mem_cons_of_mem _ member)

theorem Rows.last (some' : weight ≠ 0) (only : rows - 1 = 0) :
    weightLeft = weight := by
  have none' : rest.countP (fun weight => 0 < weight) = 0 := (held.count some').symm.trans only
  have zeros : ∀ other ∈ rest, other = 0 := fun other member => by
    have small := List.countP_eq_zero.mp none' other member
    have unsigned := held.unsigned other (List.mem_cons_of_mem _ member)
    simp only [decide_eq_true_eq, not_lt] at small
    exact le_antisymm small unsigned
  rw [held.sum, List.sum_cons, List.sum_eq_zero zeros, add_zero]

theorem Rows.share (some' : weight ≠ 0) :
    0 ≤ shareOf remaining weightLeft weight rows ∧ shareOf remaining weightLeft weight rows ≤ remaining ∧
      shareOf remaining weightLeft weight rows * weightLeft ≤ remaining * weight ∧
      remaining * weight < (shareOf remaining weightLeft weight rows + 1) * weightLeft := by
  have positive := held.positive some'
  have nonneg := held.rest_nonneg
  have whole := held.sum
  rw [List.sum_cons] at whole
  have weightLeft_pos : 0 < weightLeft := by omega
  have product : 0 ≤ remaining * weight := mul_nonneg held.left positive.le
  unfold shareOf
  split
  · rename_i only
    have same := held.last some' only
    subst same
    exact ⟨held.left, le_rfl, le_rfl, by rw [add_mul]; omega⟩
  · rw [Int.tdiv_eq_ediv_of_nonneg product]
    have floor := Int.ediv_mul_le (remaining * weight) weightLeft_pos.ne'
    refine ⟨Int.ediv_nonneg product weightLeft_pos.le, ?_, floor, Int.lt_ediv_add_one_mul_self _ weightLeft_pos⟩
    apply Int.ediv_le_of_le_mul weightLeft_pos
    exact mul_le_mul_of_nonneg_left (by omega) held.left

theorem Rows.next (some' : weight ≠ 0) :
    Rows (remaining - shareOf remaining weightLeft weight rows) (weightLeft - weight) (rows - 1) rest where
  unsigned other member := held.unsigned other (List.mem_cons_of_mem _ member)
  sum := by
    have whole := held.sum
    rw [List.sum_cons] at whole
    omega
  weighted := held.count some'
  left := sub_nonneg.mpr (held.share some').2.1
  spent only := by
    unfold shareOf
    rw [if_pos only, sub_self]

end

theorem allocateRows_cons (some' : weight ≠ 0) :
    allocateRows remaining weightLeft rows (weight :: rest) =
      shareOf remaining weightLeft weight rows ::
        allocateRows (remaining - shareOf remaining weightLeft weight rows) (weightLeft - weight) (rows - 1) rest :=
  if_neg some'

theorem allocateRows_skip : allocateRows remaining weightLeft rows (0 :: rest) = 0 :: allocateRows remaining weightLeft rows rest :=
  if_pos rfl

theorem allocateRows_sum (held : Rows remaining weightLeft rows rest) : (allocateRows remaining weightLeft rows rest).sum = remaining := by
  induction rest generalizing remaining weightLeft rows with
  | nil =>
    have none' : rows = 0 := held.weighted
    exact (held.spent none').symm
  | cons weight rest ih =>
    by_cases zero : weight = 0
    · subst zero
      rw [allocateRows_skip, List.sum_cons, ih held.skip, zero_add]
    · rw [allocateRows_cons zero, List.sum_cons, ih (held.next zero)]
      omega

/-- A share of `total` by a weight of `whole`: none for no weight, and within `n` of the exact proportion. -/
structure Near (total whole : ℤ) (n : ℕ) (weight share : ℤ) : Prop where
  unsigned : 0 ≤ share
  none' : weight = 0 → share = 0
  near : |(share : ℚ) - total * weight / whole| < n

theorem allocateRows_near {rows done : ℕ} {whole : ℤ} (positive : 0 < whole) (held : Rows remaining weightLeft rows rest)
    (ahead : total * weightLeft ≤ remaining * whole) (within' : remaining * whole ≤ total * weightLeft + done * whole) {n : ℕ}
    (fits : done + rest.length ≤ n) :
    List.Forall₂ (Near total whole n) rest (allocateRows remaining weightLeft rows rest) := by
  induction rest generalizing remaining weightLeft rows done with
  | nil => exact .nil
  | cons weight rest ih =>
    rw [List.length_cons] at fits
    have wholeQ : (0 : ℚ) < whole := Int.cast_pos.mpr positive
    by_cases zero : weight = 0
    · subst zero
      rw [allocateRows_skip]
      refine .cons ⟨le_rfl, fun _ => rfl, ?_⟩ (ih held.skip ahead within' (by omega))
      have some' : (0 : ℚ) < n := Nat.cast_pos.mpr (by omega)
      simpa using some'
    · obtain ⟨unsigned, _, floor, next⟩ := held.share zero
      have positive' := held.positive zero
      have nonneg := held.rest_nonneg
      have sum := held.sum
      rw [List.sum_cons] at sum
      have weightLeft_pos : 0 < weightLeft := by omega
      rw [allocateRows_cons zero]
      have product : shareOf remaining weightLeft weight rows * whole * weightLeft ≤ (total * weight + done * whole) * weightLeft := by nlinarith
      have below : shareOf remaining weightLeft weight rows * whole ≤ total * weight + done * whole := le_of_mul_le_mul_right product weightLeft_pos
      have above : total * weight < (shareOf remaining weightLeft weight rows + 1) * whole := by
        apply lt_of_mul_lt_mul_right _ weightLeft_pos.le
        nlinarith
      refine .cons ⟨unsigned, fun none' => absurd none' zero, ?_⟩ (@ih _ _ _ (done + 1) (held.next zero) ?_ ?_ (by omega))
      · have belowQ : (shareOf remaining weightLeft weight rows : ℚ) * whole ≤ total * weight + done * whole := by exact_mod_cast below
        have aboveQ : (total : ℚ) * weight < (shareOf remaining weightLeft weight rows + 1) * whole := by exact_mod_cast above
        have fitsQ : (done : ℚ) + 1 ≤ n := by exact_mod_cast (show done + 1 ≤ n by omega)
        have doneQ : (0 : ℚ) ≤ done := Nat.cast_nonneg _
        have upper : (total : ℚ) * weight / whole < shareOf remaining weightLeft weight rows + 1 := (div_lt_iff₀ wholeQ).mpr aboveQ
        have lower : (shareOf remaining weightLeft weight rows : ℚ) - done ≤ total * weight / whole := by
          rw [le_div_iff₀ wholeQ]
          linarith
        exact abs_lt.mpr ⟨by linarith, by linarith⟩
      · apply le_of_mul_le_mul_right _ weightLeft_pos
        nlinarith
      · apply le_of_mul_le_mul_right _ weightLeft_pos
        push_cast
        nlinarith

/-- The shares are the total, and each is near its exact proportion. -/
structure Allocated (total : ℤ) (weights shares : List ℤ) : Prop where
  sum : shares.sum = total
  each : List.Forall₂ (Near total weights.sum weights.length) weights shares

theorem allocateProRata_allocated (allocated : allocateProRata total weights = .ok shares) : Allocated total weights shares := by
  unfold allocateProRata at allocated
  split at allocated
  · cases allocated
  · rename_i valid
    obtain ⟨unsigned, weighed⟩ := not_or.mp valid
    have nonneg : ∀ weight ∈ weights, 0 ≤ weight := fun weight member => not_lt.mp fun negative => weighed ⟨weight, member, negative⟩
    split at allocated
    · rename_i empty
      split at allocated
      · cases allocated
      · rename_i none'
        cases allocated
        have zero : total = 0 := not_not.mp none'
        subst zero
        refine ⟨List.sum_eq_zero fun share member => ?_, ?_⟩
        · obtain ⟨_, _, rfl⟩ := List.mem_map.mp member
          rfl
        · rw [List.forall₂_map_right_iff]
          refine List.forall₂_same.mpr fun weight member => ⟨le_rfl, fun _ => rfl, ?_⟩
          have some' : (0 : ℚ) < weights.length := Nat.cast_pos.mpr (List.length_pos_of_mem member)
          simpa using some'
    · rename_i some'
      cases allocated
      have whole : 0 < weights.sum := lt_of_le_of_ne (List.sum_nonneg nonneg) (Ne.symm some')
      have held : Rows total weights.sum (weights.countP fun weight => 0 < weight) weights := by
        refine ⟨nonneg, rfl, rfl, not_lt.mp unsigned, fun none' => absurd (List.sum_eq_zero fun weight member => ?_) some'⟩
        have small := List.countP_eq_zero.mp none' weight member
        simp only [decide_eq_true_eq, not_lt] at small
        exact le_antisymm small (nonneg weight member)
      exact ⟨allocateRows_sum held, @allocateRows_near _ _ _ _ _ 0 _ whole held le_rfl (by simp) _ (by simp)⟩

variable {net : ℤ} {levyPpm : ℚ} {estimate : LevyEstimate}

def levyUp (grossFee levyPpm : ℤ) : ℤ := ceilDiv (grossFee * levyPpm) feeUnits

def Covering (net levyPpm : ℤ) : Set ℤ := {grossFee | 0 ≤ grossFee ∧ net ≤ grossFee - levyUp grossFee levyPpm}

theorem levyUp_le_iff {grossFee levy : ℤ} : net ≤ grossFee - levyUp grossFee levy ↔ net * 1000000 ≤ grossFee * (1000000 - levy) := by
  have flips : net ≤ grossFee - levyUp grossFee levy ↔ levyUp grossFee levy ≤ grossFee - net := by omega
  rw [flips]
  unfold levyUp
  rw [ceilDiv_le_iff (by decide)]
  show grossFee * levy ≤ (grossFee - net) * 1000000 ↔ _
  constructor <;> intro bound <;> linarith

theorem estimateUnstakedLevy_least (given : 0 ≤ net) (estimated : estimateUnstakedLevy net levyPpm = .ok estimate) :
    estimate.grossFee - estimate.levy = net ∧ 0 ≤ estimate.levy ∧ IsLeast (Covering net levyPpm.num) estimate.grossFee := by
  unfold estimateUnstakedLevy at estimated
  split at estimated
  · cases estimated
  · rename_i valid
    obtain ⟨whole, least, most⟩ : levyPpm.den = 1 ∧ 0 ≤ levyPpm ∧ levyPpm < 1000000 := by
      simpa only [not_or, not_not, not_lt, not_le] using valid
    have same : ((levyPpm.num : ℤ) : ℚ) = levyPpm := Rat.coe_int_num_of_den_eq_one whole
    have leastInt : 0 ≤ levyPpm.num := Rat.num_nonneg.mpr least
    have mostInt : levyPpm.num < 1000000 := by
      rw [← same] at most
      exact_mod_cast most
    split at estimated
    · rename_i free
      cases estimated
      refine ⟨sub_zero _, le_rfl, ?_, ?_⟩
      · refine ⟨given, levyUp_le_iff.mpr ?_⟩
        rcases free with none' | unlevied
        · rw [none', zero_mul, zero_mul]
        · rw [unlevied]
          exact le_rfl
      · rintro grossFee ⟨nonneg, covers⟩
        rw [levyUp_le_iff] at covers
        show net ≤ grossFee
        nlinarith
    · cases estimated
      have rest : 0 < 1000000 - levyPpm.num := by omega
      have rounded : (net * 1000000 + (1000000 - levyPpm.num) - 1).tdiv (1000000 - levyPpm.num) = ceilDiv (net * 1000000) (1000000 - levyPpm.num) :=
        Int.tdiv_eq_ediv_of_nonneg (by omega)
      dsimp only
      rw [rounded]
      have atLeast : net ≤ ceilDiv (net * 1000000) (1000000 - levyPpm.num) := by
        have covers := (ceilDiv_le_iff rest).mp (le_refl (ceilDiv (net * 1000000) (1000000 - levyPpm.num)))
        nlinarith
      refine ⟨by omega, by omega, ?_, ?_⟩
      · exact ⟨given.trans atLeast, levyUp_le_iff.mpr ((ceilDiv_le_iff rest).mp le_rfl)⟩
      · rintro grossFee ⟨_, covers⟩
        exact (ceilDiv_le_iff rest).mpr (levyUp_le_iff.mp covers)

variable {args : CollectArgs} {entries : List CollectEntry} {kind : LedgerEntryKind} {token : Address}

def held (kind : LedgerEntryKind) (token : Address) (entries : List CollectEntry) : ℤ :=
  ((entries.filter fun entry => entry.kind = kind ∧ entry.token = token).map CollectEntry.amount).sum

def onToken (args : CollectArgs) (token : Address) (amount0 amount1 : ℤ) : ℤ :=
  (if args.token0 = token then amount0 else 0) + (if args.token1 = token then amount1 else 0)

/-- The entries of a collect, per token: principal and gross fee less the levy are what was collected, and the gross fee is the
least that covers the net. -/
structure Conserved (args : CollectArgs) (entries : List CollectEntry) (collected0 collected1 gross0 gross1 : ℤ) : Prop where
  read0 : args.collected0 = some collected0
  read1 : args.collected1 = some collected1
  least0 : ∀ principal0 ∈ args.principal0, IsLeast (Covering (collected0 - principal0) (args.unstakedLevyPpm.getD 0).num) gross0
  least1 : ∀ principal1 ∈ args.principal1, IsLeast (Covering (collected1 - principal1) (args.unstakedLevyPpm.getD 0).num) gross1
  gross : ∀ token, held .feeGross token entries = onToken args token gross0 gross1
  collected : ∀ token, held .principalExit token entries + held .feeGross token entries - held .protocolFee token entries =
    onToken args token collected0 collected1

theorem held_add {own : LedgerEntryKind} {mine : Address} {raw : ℤ} {estimated : Bool} (given : 0 ≤ raw) :
    held kind token (add args own mine raw estimated entries) = held kind token entries + if own = kind ∧ mine = token then raw else 0 := by
  unfold add
  split
  · unfold held
    rw [List.filter_append, List.map_append, List.sum_append]
    by_cases counted : own = kind ∧ mine = token
    · rw [if_pos counted, List.filter_cons_of_pos (by simpa using counted)]
      simp
    · rw [if_neg counted, List.filter_cons_of_neg (by simpa using counted)]
      simp
  · rename_i none'
    have zero : raw = 0 := le_antisymm (not_lt.mp none') given
    rw [zero, ite_self, add_zero]

theorem amount_read {read : Option ℤ} {name : String} {value : ℤ} (parsed : amount read name = .ok value) : read = some value ∧ 0 ≤ value := by
  unfold amount at parsed
  split at parsed
  · cases parsed
  · rename_i number
    split at parsed
    · cases parsed
    · rename_i unsigned
      cases parsed
      exact ⟨rfl, not_lt.mp unsigned⟩

theorem addFee_held {levyPpm : ℚ} {mine : Address} {net : ℤ} {before after : List CollectEntry} (given : 0 ≤ net)
    (added : addFee args levyPpm mine net before = .ok after) :
    ∃ gross levy, gross - levy = net ∧ IsLeast (Covering net levyPpm.num) gross ∧ ∀ kind token, held kind token after =
      held kind token before + (if .feeGross = kind ∧ mine = token then gross else 0) + if .protocolFee = kind ∧ mine = token then levy else 0 := by
  unfold addFee at added
  obtain ⟨estimate, estimated, added⟩ := bind_ok added
  cases added
  obtain ⟨splits, levied, least⟩ := estimateUnstakedLevy_least given estimated
  refine ⟨estimate.grossFee, estimate.levy, splits, least, fun kind token => ?_⟩
  rw [held_add levied, held_add (by omega)]

theorem attributeCollect_conserved (attributed : attributeCollect args = .ok entries) :
    ∃ collected0 collected1 gross0 gross1, Conserved args entries collected0 collected1 gross0 gross1 := by
  unfold attributeCollect at attributed
  obtain ⟨p0, principal0, attributed⟩ := bind_ok attributed
  obtain ⟨p1, principal1, attributed⟩ := bind_ok attributed
  obtain ⟨c0, collected0, attributed⟩ := bind_ok attributed
  obtain ⟨c1, collected1, attributed⟩ := bind_ok attributed
  obtain ⟨given0, unsigned0⟩ := amount_read principal0
  obtain ⟨given1, unsigned1⟩ := amount_read principal1
  split at attributed
  · cases attributed
  · rename_i enough
    obtain ⟨enough0, enough1⟩ := not_or.mp enough
    obtain ⟨middle, first, second⟩ := bind_ok attributed
    obtain ⟨gross0, levy0, splits0, least0, held0⟩ := addFee_held (by omega) first
    obtain ⟨gross1, levy1, splits1, least1, held1⟩ := addFee_held (by omega) second
    have total (kind : LedgerEntryKind) (token : Address) := held1 kind token
    simp only [held0, held_add unsigned1, held_add unsigned0] at total
    have empty (kind : LedgerEntryKind) (token : Address) : held kind token [] = 0 := rfl
    refine ⟨c0, c1, gross0, gross1, (amount_read collected0).1, (amount_read collected1).1, ?_, ?_, fun token => ?_, fun token => ?_⟩
    · intro principal read
      rw [given0] at read
      rw [← Option.some.inj read]
      exact least0
    · intro principal read
      rw [given1] at read
      rw [← Option.some.inj read]
      exact least1
    · rw [total]
      simp [empty, onToken]
    · rw [total, total, total]
      simp only [empty, onToken, reduceCtorEq, false_and, true_and, if_false]
      split <;> split <;> omega

/-- Whatever is split is conserved: the shares are the total, each near its exact proportion, and the entries of a collect are what
was collected, under the least gross fee that covers what was received. -/
theorem accounting_conserves :
    (∀ total weights shares, allocateProRata total weights = .ok shares → Allocated total weights shares) ∧
      ∀ args entries, attributeCollect args = .ok entries →
        ∃ collected0 collected1 gross0 gross1, Conserved args entries collected0 collected1 gross0 gross1 := by
  constructor
  · intro total weights shares allocated
    exact allocateProRata_allocated allocated
  · intro args entries attributed
    exact attributeCollect_conserved attributed

def smallCollect : CollectArgs where
  strategyId := 1
  cycleId := none
  ts := 0
  token0 := 10
  token1 := 11
  principal0 := some 0
  principal1 := some 0
  collected0 := some 1
  collected1 := some 0
  unstakedLevyPpm := some 100000
  txHash := none
  blockNumber := none

def smallEntries : List CollectEntry :=
  [⟨⟨.feeGross, 10, 0⟩, 1, none, 0, none, none, .feeGross, 10, 2, true⟩,
    ⟨⟨.protocolFee, 10, 1⟩, 1, none, 0, none, none, .protocolFee, 10, 1, true⟩]

theorem smallCollect_attributed : attributeCollect smallCollect = .ok smallEntries := by decide +kernel

theorem accounting_conserves_small :
    Allocated 10 [1, 0, 2] [3, 0, 7] ∧ ∃ collected0 collected1 gross0 gross1, Conserved smallCollect smallEntries collected0 collected1 gross0 gross1 :=
  ⟨accounting_conserves.1 10 [1, 0, 2] [3, 0, 7] (by decide +kernel),
    accounting_conserves.2 smallCollect smallEntries smallCollect_attributed⟩

/-- Under a levy that rounded down one unit of gross fee would have covered it: the entry holds two. -/
theorem gross_above_floored_levy :
    attributeCollect smallCollect = .ok smallEntries ∧ held .feeGross 10 smallEntries = 2 ∧
      ¬ IsLeast {grossFee : ℤ | 0 ≤ grossFee ∧ 1 ≤ grossFee - grossFee * 100000 / 1000000} (held .feeGross 10 smallEntries) := by
  refine ⟨by decide +kernel, by decide, fun least => ?_⟩
  have below : held .feeGross 10 smallEntries ≤ 1 := least.2 ⟨by decide, by decide⟩
  exact absurd below (by decide)

end LpTerminal.Accounting
