import LpTerminal.Lib.Durable
import LpTerminal.Lib.Trace
import LpTerminal.Store.Jobs
import Mathlib.Algebra.Order.Ring.Int

/-!
`daily_turnover_reservations`: the quote-token turnover that the jobs of a strategy may reserve in one UTC day, within its
limit over every order of reservations, commits and abandonments.
-/

namespace LpTerminal.Turnover

open Durable Store Trace

def utcDay (timestamp : ℤ) : ℤ :=
  timestamp / 86400 * 86400

inductive ReservationState
  | reserved | confirmed | released
  deriving DecidableEq, Repr

structure Reservation where
  jobId : JobId
  walletId : WalletId
  quoteToken : Address
  utcDay : ℤ
  amount : ℤ
  state : ReservationState

def Reservation.key (row : Reservation) : ℕ ×ₗ ℕ :=
  toLex (row.jobId, row.quoteToken)

structure TurnoverStore where
  jobs : JobTable
  reservations : Table Reservation.key

structure ReserveArgs where
  jobId : JobId
  walletId : WalletId
  quoteToken : Address
  amount : ℤ
  limit : ℤ
  now : ℤ

def Reservation.countsFor (store : TurnoverStore) (walletId : WalletId) (strategyId : StrategyId) (token : Address) (day : ℤ)
    (row : Reservation) : Bool :=
  row.walletId = walletId && row.quoteToken = token && row.utcDay = day && row.state ≠ .released &&
    strategyOf store.jobs row.jobId = some strategyId

/-- `dailyTurnoverUsed` of a strategy. -/
def dailyTurnoverUsed (store : TurnoverStore) (walletId : WalletId) (strategyId : StrategyId) (token : Address) (day : ℤ) : ℤ :=
  store.reservations.total (Reservation.countsFor store walletId strategyId token day) Reservation.amount

def usedByOthers (store : TurnoverStore) (walletId : WalletId) (strategyId : StrategyId) (token : Address) (day : ℤ)
    (jobId : JobId) : ℤ :=
  store.reservations.total (fun row => row.countsFor store walletId strategyId token day && row.key ≠ toLex (jobId, token))
    Reservation.amount

def moveReservation (existing : Reservation) (day amount : ℤ) (store : TurnoverStore) : TurnoverStore :=
  { store with reservations := store.reservations.put { existing with utcDay := day, amount } }

def insertReservation (args : ReserveArgs) (store : TurnoverStore) : TurnoverStore :=
  { store with
    reservations := store.reservations.put
      { jobId := args.jobId, walletId := args.walletId, quoteToken := args.quoteToken, utcDay := utcDay args.now
        amount := args.amount, state := .reserved } }

def reserveDailyTurnover (args : ReserveArgs) : Durable ErrorCode TurnoverStore Unit :=
  if args.amount < 0 ∨ args.limit < 0 then fail .dailyLimit
  else if args.amount = 0 then return ()
  else atomically do
    let day := utcDay args.now
    let store ← read
    match strategyOf store.jobs args.jobId with
    | none => fail .jobMissing
    | some strategyId =>
      match store.reservations.get? (toLex (args.jobId, args.quoteToken)) with
      | none =>
        if dailyTurnoverUsed store args.walletId strategyId args.quoteToken day + args.amount > args.limit then fail .dailyLimit
        else write (insertReservation args)
      | some existing =>
        match existing.state with
        | .released => fail .dailyLimit
        | .confirmed => if existing.utcDay ≠ day ∨ existing.amount ≠ args.amount then fail .dailyLimit else return ()
        | .reserved =>
          if usedByOthers store args.walletId strategyId args.quoteToken day args.jobId + args.amount > args.limit then fail .dailyLimit
          else write (moveReservation existing day args.amount)

def Reservation.settle (jobId : JobId) (state : ReservationState) (row : Reservation) : Reservation :=
  if row.jobId = jobId ∧ row.state = .reserved then { row with state } else row

@[simp] theorem settle_key (jobId : JobId) (state : ReservationState) (row : Reservation) : (row.settle jobId state).key = row.key := by
  unfold Reservation.settle
  split <;> rfl

/-- `UPDATE ... SET state=? WHERE job_id=? AND state='reserved'`. -/
def settleReservations (jobId : JobId) (state : ReservationState) (store : TurnoverStore) : TurnoverStore :=
  { store with reservations := store.reservations.adjust (Reservation.settle jobId state) (settle_key jobId state) }

def confirmDailyTurnover (jobId : JobId) : Durable ErrorCode TurnoverStore Unit :=
  write (settleReservations jobId .confirmed)

def releaseDailyTurnover (jobId : JobId) : Durable ErrorCode TurnoverStore Unit :=
  write (settleReservations jobId .released)

def markJob (jobId : JobId) (status : JobStatus) : Durable ErrorCode TurnoverStore Unit :=
  write fun store => { store with jobs := setStatus store.jobs jobId status }

/-- A commit of the job: `rest` stands for its other writes, any of which may throw. -/
def commitJob (jobId : JobId) (rest : Except ErrorCode Unit) : Durable ErrorCode TurnoverStore Unit :=
  atomically do
    reply rest
    confirmDailyTurnover jobId
    markJob jobId .completed

def abandonRecoveryJob (jobId : JobId) : Durable ErrorCode TurnoverStore Unit :=
  atomically do
    let store ← read
    match store.jobs.get? jobId with
    | none => fail .recoveryJob
    | some row =>
      if row.status = .recovery ∨ row.status = .failed then do
        markJob jobId .failed
        releaseDailyTurnover jobId
      else fail .recoveryJob

/-- The open job of an archived strategy is cancelled; `rest` stands for the other writes. -/
def archiveStrategy (strategyId : StrategyId) (jobId : Option JobId) (rest : Except ErrorCode Unit) :
    Durable ErrorCode TurnoverStore Unit :=
  atomically do
    let store ← read
    match jobId with
    | none => reply rest
    | some jobId =>
      match store.jobs.get? jobId with
      | none => fail .strategyBusy
      | some row =>
        if row.strategyId = strategyId ∧ (row.status = .planned ∨ row.status = .recovery) then do
          markJob jobId .cancelled
          releaseDailyTurnover jobId
          reply rest
        else fail .strategyBusy

/-- The reservation of a job whose token roles are corrected is released; `swapped` tells whether a swap is confirmed. -/
def replaceRecoveryStrategyConfig (jobId : JobId) (strategyId : StrategyId) (swapped : Bool) : Durable ErrorCode TurnoverStore Unit :=
  atomically do
    let store ← read
    match store.jobs.get? jobId with
    | none => fail .recoveryJob
    | some row =>
      if row.status ≠ .recovery ∨ row.strategyId ≠ strategyId then fail .recoveryJob
      else if swapped then fail .recoveryContext
      else releaseDailyTurnover jobId

def createJob (jobId : JobId) (strategyId : StrategyId) : Durable ErrorCode TurnoverStore Unit :=
  atomically do
    let store ← read
    match store.jobs.get? jobId with
    | some _ => fail .uniqueConstraint
    | none => write fun store => { store with jobs := store.jobs.put ⟨jobId, strategyId, .planned⟩ }

inductive Call
  | createJob (jobId : JobId) (strategyId : StrategyId)
  | setJobState (jobId : JobId) (status : JobStatus)
  | reserve (args : ReserveArgs)
  | confirm (jobId : JobId)
  | release (jobId : JobId)
  | commit (jobId : JobId) (rest : Except ErrorCode Unit)
  | abandon (jobId : JobId)
  | archive (strategyId : StrategyId) (jobId : Option JobId) (rest : Except ErrorCode Unit)
  | replaceConfig (jobId : JobId) (strategyId : StrategyId) (swapped : Bool)

def Call.program : Call → Durable ErrorCode TurnoverStore Unit
  | .createJob jobId strategyId => Turnover.createJob jobId strategyId
  | .setJobState jobId status => markJob jobId status
  | .reserve args => reserveDailyTurnover args
  | .confirm jobId => confirmDailyTurnover jobId
  | .release jobId => releaseDailyTurnover jobId
  | .commit jobId rest => commitJob jobId rest
  | .abandon jobId => abandonRecoveryJob jobId
  | .archive strategyId jobId rest => archiveStrategy strategyId jobId rest
  | .replaceConfig jobId strategyId swapped => replaceRecoveryStrategyConfig jobId strategyId swapped

def afterCall (store : TurnoverStore) (call : Call) : TurnoverStore :=
  left call.program store

inductive Reserves (args : ReserveArgs) (store : TurnoverStore) : TurnoverStore → Prop
  | nothing (free : args.amount = 0) : Reserves args store store
  | repeated {existing : Reservation} (row : store.reservations.get? (toLex (args.jobId, args.quoteToken)) = some existing)
      (confirmed : existing.state = .confirmed) : Reserves args store store
  | inserted {strategyId : StrategyId} (own : strategyOf store.jobs args.jobId = some strategyId)
      (missing : store.reservations.get? (toLex (args.jobId, args.quoteToken)) = none) (amount : 0 ≤ args.amount)
      (fits : dailyTurnoverUsed store args.walletId strategyId args.quoteToken (utcDay args.now) + args.amount ≤ args.limit) :
      Reserves args store (insertReservation args store)
  | moved {strategyId : StrategyId} {existing : Reservation} (own : strategyOf store.jobs args.jobId = some strategyId)
      (amount : 0 ≤ args.amount) (row : store.reservations.get? (toLex (args.jobId, args.quoteToken)) = some existing)
      (opened : existing.state = .reserved)
      (fits : usedByOthers store args.walletId strategyId args.quoteToken (utcDay args.now) args.jobId + args.amount ≤ args.limit) :
      Reserves args store (moveReservation existing (utcDay args.now) args.amount store)

theorem reserve_spec (args : ReserveArgs) (store : TurnoverStore) :
    Triple (· = store) (reserveDailyTurnover args) (fun _ after => Reserves args store after) (· = store) := by
  unfold reserveDailyTurnover
  split
  · exact triple_fail fun _ same => same
  rename_i signs
  split
  · rename_i free
    exact triple_pure fun after same => by rw [same]; exact .nothing free
  have amount : 0 ≤ args.amount := by omega
  refine triple_atomically fun start same => ?_
  subst same
  refine triple_bind (Q := fun told after => told = start ∧ after = start) (triple_read fun _ same => ⟨same, same⟩) fun told => ?_
  refine triple_assume fun here => ?_
  subst here
  split
  · exact triple_fail fun _ _ => rfl
  rename_i strategyId own
  split
  · rename_i missing
    split
    · exact triple_fail fun _ _ => rfl
    · rename_i room
      exact triple_write fun after same => by rw [same]; exact .inserted own missing amount (not_lt.mp room)
  rename_i existing row
  split
  · exact triple_fail fun _ _ => rfl
  · rename_i confirmed
    split
    · exact triple_fail fun _ _ => rfl
    · exact triple_pure fun after same => by rw [same]; exact .repeated row confirmed
  · rename_i opened
    split
    · exact triple_fail fun _ _ => rfl
    · rename_i room
      exact triple_write fun after same => by rw [same]; exact .moved own amount row opened (not_lt.mp room)

structure Within (limitOf : StrategyId → ℕ) (store : TurnoverStore) : Prop where
  bounded : ∀ walletId strategyId token day, dailyTurnoverUsed store walletId strategyId token day ≤ limitOf strategyId
  amounts : ∀ row ∈ store.reservations.rows, 0 ≤ row.amount
  owned : ∀ row ∈ store.reservations.rows, (strategyOf store.jobs row.jobId).isSome

variable {limitOf : StrategyId → ℕ} {store : TurnoverStore}

variable {row : Reservation}

theorem countsFor_iff {walletId : WalletId} {strategyId : StrategyId} {token : Address} {day : ℤ} :
    row.countsFor store walletId strategyId token day ↔
      row.walletId = walletId ∧ row.quoteToken = token ∧ row.utcDay = day ∧ row.state ≠ .released ∧
        strategyOf store.jobs row.jobId = some strategyId := by
  simp only [Reservation.countsFor, Bool.and_eq_true, decide_eq_true_eq, and_assoc]

theorem used_put (row : Reservation) (walletId : WalletId) (strategyId : StrategyId) (token : Address) (day : ℤ) :
    dailyTurnoverUsed { store with reservations := store.reservations.put row } walletId strategyId token day =
      (if row.countsFor store walletId strategyId token day then row.amount else 0) +
        store.reservations.total (fun other => other.countsFor store walletId strategyId token day && other.key ≠ row.key)
          Reservation.amount :=
  Table.total_put

theorem others_le (amounts : ∀ row ∈ store.reservations.rows, 0 ≤ row.amount) (key : ℕ ×ₗ ℕ) (walletId : WalletId)
    (strategyId : StrategyId) (token : Address) (day : ℤ) :
    store.reservations.total (fun other => other.countsFor store walletId strategyId token day && other.key ≠ key)
      Reservation.amount ≤ dailyTurnoverUsed store walletId strategyId token day :=
  Table.total_le (fun _ chosen => (Bool.and_eq_true_iff.mp chosen).1) amounts

theorem within_put (within : Within limitOf store) (amount : 0 ≤ row.amount)
    (fits : ∀ strategyId, strategyOf store.jobs row.jobId = some strategyId →
      usedByOthers store row.walletId strategyId row.quoteToken row.utcDay row.jobId + row.amount ≤ limitOf strategyId)
    (owned : (strategyOf store.jobs row.jobId).isSome) :
    Within limitOf { store with reservations := store.reservations.put row } where
  bounded walletId strategyId token day := by
    rw [used_put]
    split
    · rename_i counted
      obtain ⟨rfl, rfl, rfl, _, own⟩ := countsFor_iff.mp counted
      have room := fits strategyId own
      have same : usedByOthers store row.walletId strategyId row.quoteToken row.utcDay row.jobId =
          store.reservations.total
            (fun other => other.countsFor store row.walletId strategyId row.quoteToken row.utcDay && other.key ≠ row.key)
            Reservation.amount := rfl
      omega
    · have before := within.bounded walletId strategyId token day
      have others := others_le within.amounts row.key walletId strategyId token day
      omega
  amounts other member := by
    rcases Table.mem_put.mp member with rfl | ⟨old, _⟩
    · exact amount
    · exact within.amounts other old
  owned other member := by
    rcases Table.mem_put.mp member with rfl | ⟨old, _⟩
    · exact owned
    · exact within.owned other old

theorem settle_amount (jobId : JobId) (state : ReservationState) (row : Reservation) : (row.settle jobId state).amount = row.amount := by
  unfold Reservation.settle
  split <;> rfl

theorem settle_jobId (jobId : JobId) (state : ReservationState) (row : Reservation) : (row.settle jobId state).jobId = row.jobId := by
  unfold Reservation.settle
  split <;> rfl

theorem settle_counts {jobId : JobId} {state : ReservationState} {walletId : WalletId} {strategyId : StrategyId}
    {token : Address} {day : ℤ} (counted : (row.settle jobId state).countsFor store walletId strategyId token day) :
    row.countsFor store walletId strategyId token day := by
  unfold Reservation.settle at counted
  split at counted
  · rename_i own
    obtain ⟨wallet, quote, date, _, strategy⟩ := countsFor_iff.mp counted
    exact countsFor_iff.mpr ⟨wallet, quote, date, by rw [own.2]; decide, strategy⟩
  · exact counted

theorem within_settle (within : Within limitOf store) (jobId : JobId) (state : ReservationState) :
    Within limitOf (settleReservations jobId state store) where
  bounded walletId strategyId token day := by
    have before := within.bounded walletId strategyId token day
    have narrows : ∀ row, (Reservation.countsFor store walletId strategyId token day ∘ Reservation.settle jobId state) row →
        Reservation.countsFor store walletId strategyId token day row := fun _ counted => settle_counts counted
    calc dailyTurnoverUsed (settleReservations jobId state store) walletId strategyId token day
      _ = store.reservations.total (Reservation.countsFor store walletId strategyId token day ∘ Reservation.settle jobId state)
            Reservation.amount := Table.total_adjust (settle_key jobId state) (settle_amount jobId state)
      _ ≤ dailyTurnoverUsed store walletId strategyId token day := Table.total_le narrows within.amounts
      _ ≤ limitOf strategyId := before
  amounts row member := by
    obtain ⟨before, old, rfl⟩ := List.mem_map.mp member
    rw [settle_amount]
    exact within.amounts before old
  owned row member := by
    obtain ⟨before, old, rfl⟩ := List.mem_map.mp member
    rw [settle_jobId]
    exact within.owned before old

theorem within_jobs (within : Within limitOf store) {jobs : JobTable}
    (same : ∀ row ∈ store.reservations.rows, strategyOf jobs row.jobId = strategyOf store.jobs row.jobId) :
    Within limitOf { store with jobs } where
  bounded walletId strategyId token day := by
    have rows : store.reservations.rows.filter (Reservation.countsFor { store with jobs } walletId strategyId token day) =
        store.reservations.rows.filter (Reservation.countsFor store walletId strategyId token day) := by
      refine List.filter_congr fun row member => ?_
      unfold Reservation.countsFor
      rw [same row member]
    have used : dailyTurnoverUsed { store with jobs } walletId strategyId token day =
        dailyTurnoverUsed store walletId strategyId token day := by
      unfold dailyTurnoverUsed Table.total
      rw [rows]
    rw [used]
    exact within.bounded walletId strategyId token day
  amounts := within.amounts
  owned row member := by
    rw [same row member]
    exact within.owned row member

def Named (limitOf : StrategyId → ℕ) (store : TurnoverStore) : Call → Prop
  | .reserve args =>
    (∀ strategyId ∈ strategyOf store.jobs args.jobId, args.limit = limitOf strategyId) ∧
      ∀ existing ∈ store.reservations.get? (toLex (args.jobId, args.quoteToken)),
        existing.state = .reserved → existing.walletId = args.walletId
  | _ => True

instance (limitOf : StrategyId → ℕ) (store : TurnoverStore) (call : Call) : Decidable (Named limitOf store call) := by
  cases call <;> unfold Named <;> infer_instance

variable {after : TurnoverStore}

theorem within_reserve (within : Within limitOf store) {args : ReserveArgs} (named : Named limitOf store (.reserve args))
    (reserved : Reserves args store after) : Within limitOf after := by
  cases reserved with
  | nothing free => exact within
  | repeated row confirmed => exact within
  | @inserted strategyId own missing amount fits =>
    refine within_put within amount (fun other known => ?_) (by rw [own]; rfl)
    cases own.symm.trans known
    have limit := named.1 strategyId own
    have others := others_le within.amounts (toLex (args.jobId, args.quoteToken)) args.walletId strategyId args.quoteToken
      (utcDay args.now)
    change store.reservations.total _ _ + args.amount ≤ _
    exact (Int.add_le_add_right others _).trans (limit ▸ fits)
  | @moved strategyId existing own amount row opened fits =>
    have key := Table.get?_key row
    have job : existing.jobId = args.jobId := congrArg (fun k => (ofLex k).1) key
    have token : existing.quoteToken = args.quoteToken := congrArg (fun k => (ofLex k).2) key
    refine within_put within amount (fun other known => ?_) (by dsimp only; rw [job, own]; rfl)
    dsimp only at known ⊢
    rw [job] at known
    cases own.symm.trans known
    rw [job, token, named.2 existing row opened, ← named.1 strategyId own]
    exact fits

theorem keeps_settle (jobId : JobId) (state : ReservationState) :
    Keeps (Within limitOf) (write (settleReservations jobId state) : Durable ErrorCode TurnoverStore Unit) :=
  keeps_write fun _ within => within_settle within jobId state

theorem keeps_markJob (jobId : JobId) (status : JobStatus) : Keeps (Within limitOf) (markJob jobId status) :=
  keeps_write fun store within => within_jobs within fun row _ => strategyOf_setStatus store.jobs jobId row.jobId status

theorem keeps_transaction {m : Durable ErrorCode TurnoverStore Unit} (kept : Keeps (Within limitOf) m) :
    Keeps (Within limitOf) (atomically m) :=
  keeps_atomically (triple_weaken kept (fun _ within => within) (fun _ _ within => within) fun _ _ => trivial)

theorem keeps_commitJob (jobId : JobId) (rest : Except ErrorCode Unit) : Keeps (Within limitOf) (commitJob jobId rest) :=
  keeps_transaction (keeps_bind (keeps_reply rest) fun _ =>
    keeps_bind (keeps_settle jobId .confirmed) fun _ => keeps_markJob jobId .completed)

theorem keeps_abandonRecoveryJob (jobId : JobId) : Keeps (Within limitOf) (abandonRecoveryJob jobId) := by
  refine keeps_transaction (keeps_bind keeps_read fun store => ?_)
  split
  · exact keeps_fail _
  · split
    · exact keeps_bind (keeps_markJob jobId .failed) fun _ => keeps_settle jobId .released
    · exact keeps_fail _

theorem keeps_archiveStrategy (strategyId : StrategyId) (jobId : Option JobId) (rest : Except ErrorCode Unit) :
    Keeps (Within limitOf) (archiveStrategy strategyId jobId rest) := by
  refine keeps_transaction (keeps_bind keeps_read fun store => ?_)
  split
  · exact keeps_reply rest
  · rename_i jobId
    split
    · exact keeps_fail _
    · split
      · exact keeps_bind (keeps_markJob jobId .cancelled) fun _ =>
          keeps_bind (keeps_settle jobId .released) fun _ => keeps_reply rest
      · exact keeps_fail _

theorem keeps_replaceRecoveryStrategyConfig (jobId : JobId) (strategyId : StrategyId) (swapped : Bool) :
    Keeps (Within limitOf) (replaceRecoveryStrategyConfig jobId strategyId swapped) := by
  refine keeps_transaction (keeps_bind keeps_read fun store => ?_)
  split
  · exact keeps_fail _
  · split
    · exact keeps_fail _
    · split
      · exact keeps_fail _
      · exact keeps_settle jobId .released

theorem keeps_createJob (jobId : JobId) (strategyId : StrategyId) : Keeps (Within limitOf) (createJob jobId strategyId) := by
  refine keeps_atomically (triple_bind (Q := fun told store => told = store ∧ Within limitOf store)
    (triple_read fun store within => ⟨rfl, within⟩) fun told => ?_)
  split
  · exact triple_fail fun _ _ => trivial
  · rename_i missing
    refine triple_write fun store before => ?_
    obtain ⟨rfl, within⟩ := before
    refine within_jobs within fun row member => ?_
    have known := within.owned row member
    have other : row.jobId ≠ jobId := by
      rintro rfl
      rw [strategyOf, missing] at known
      cases known
    unfold strategyOf
    rw [Table.get?_put_other other]

theorem afterCall_within {call : Call} (within : Within limitOf store) (named : Named limitOf store call) :
    Within limitOf (afterCall store call) := by
  unfold afterCall
  cases call with
  | reserve args =>
    refine left_keeps (P := (· = store)) (triple_weaken (reserve_spec args store) (fun _ same => same) ?_ ?_) rfl
    · exact fun _ after reserved => within_reserve within named reserved
    · exact fun after same => by rw [same]; exact within
  | createJob jobId strategyId => exact left_keeps (keeps_createJob jobId strategyId) within
  | setJobState jobId status => exact left_keeps (keeps_markJob jobId status) within
  | confirm jobId => exact left_keeps (keeps_settle jobId .confirmed) within
  | release jobId => exact left_keeps (keeps_settle jobId .released) within
  | commit jobId rest => exact left_keeps (keeps_commitJob jobId rest) within
  | abandon jobId => exact left_keeps (keeps_abandonRecoveryJob jobId) within
  | archive strategyId jobId rest => exact left_keeps (keeps_archiveStrategy strategyId jobId rest) within
  | replaceConfig jobId strategyId swapped =>
    exact left_keeps (keeps_replaceRecoveryStrategyConfig jobId strategyId swapped) within

theorem fresh_within (limitOf : StrategyId → ℕ) {store : TurnoverStore} (fresh : store.reservations = Table.empty) :
    Within limitOf store where
  bounded walletId strategyId token day := by
    unfold dailyTurnoverUsed Table.total
    rw [fresh]
    exact Int.natCast_nonneg _
  amounts row member := by
    rw [fresh] at member
    cases member
  owned row member := by
    rw [fresh] at member
    cases member

theorem call_throws {call : Call} {e : ErrorCode} (threw : call.program.run store = (.error e, after)) :
    after = store := by
  cases call with
  | reserve args =>
    have spec := reserve_spec args store store rfl
    rw [show (reserveDailyTurnover args).run store = _ from threw] at spec
    exact spec
  | createJob jobId strategyId => exact atomically_throws threw
  | setJobState jobId status => cases threw
  | confirm jobId => cases threw
  | release jobId => cases threw
  | commit jobId rest => exact atomically_throws threw
  | abandon jobId => exact atomically_throws threw
  | archive strategyId jobId rest => exact atomically_throws threw
  | replaceConfig jobId strategyId swapped => exact atomically_throws threw

theorem reserve_moves {args : ReserveArgs} {existing : Reservation} (priced : args.amount ≠ 0)
    (row : store.reservations.get? (toLex (args.jobId, args.quoteToken)) = some existing) (opened : existing.state = .reserved)
    (returned : (reserveDailyTurnover args).run store = (.ok (), after)) (walletId : WalletId) (strategyId : StrategyId) (day : ℤ) :
    dailyTurnoverUsed after walletId strategyId args.quoteToken day =
      (if existing.walletId = walletId ∧ utcDay args.now = day ∧ strategyOf store.jobs args.jobId = some strategyId
        then args.amount else 0) + usedByOthers store walletId strategyId args.quoteToken day args.jobId := by
  have reserved := reserve_spec args store store rfl
  rw [returned] at reserved
  have key := Table.get?_key row
  have job : existing.jobId = args.jobId := congrArg (fun k => (ofLex k).1) key
  have token : existing.quoteToken = args.quoteToken := congrArg (fun k => (ofLex k).2) key
  cases reserved with
  | nothing free => exact absurd free priced
  | repeated found confirmed =>
    cases row.symm.trans found
    rw [opened] at confirmed
    cases confirmed
  | inserted own missing amount fits =>
    rw [missing] at row
    cases row
  | @moved _ found own amount same _ fits =>
    cases row.symm.trans same
    have counted : ({ existing with utcDay := utcDay args.now, amount := args.amount } : Reservation).countsFor store walletId
        strategyId args.quoteToken day ↔
          existing.walletId = walletId ∧ utcDay args.now = day ∧ strategyOf store.jobs args.jobId = some strategyId := by
      rw [countsFor_iff]
      dsimp only
      rw [job, token, opened]
      simp
    unfold moveReservation
    rw [used_put]
    refine congrArg₂ (· + ·) (if_congr counted rfl rfl) ?_
    change store.reservations.total (fun other => _ && other.key ≠ existing.key) _ = _
    rw [key]
    rfl

/-- While every reserve call of an open reservation names the wallet of that reservation, no order of calls
takes a day of a strategy over its limit. -/
theorem turnover_within_limits (limitOf : StrategyId → ℕ) {store : TurnoverStore} {calls : List Call}
    (fresh : store.reservations = Table.empty) (named : Along afterCall (Named limitOf) store calls) :
    (∀ walletId strategyId token day,
        dailyTurnoverUsed (run afterCall store calls) walletId strategyId token day ≤ limitOf strategyId) ∧
      (∀ (call : Call) (e : ErrorCode) (after : TurnoverStore),
        call.program.run (run afterCall store calls) = (.error e, after) → after = run afterCall store calls) ∧
      ∀ (args : ReserveArgs) (existing : Reservation) (after : TurnoverStore), args.amount ≠ 0 →
        (run afterCall store calls).reservations.get? (toLex (args.jobId, args.quoteToken)) = some existing →
        existing.state = .reserved → (reserveDailyTurnover args).run (run afterCall store calls) = (.ok (), after) →
        ∀ walletId strategyId day, dailyTurnoverUsed after walletId strategyId args.quoteToken day =
          (if existing.walletId = walletId ∧ utcDay args.now = day ∧
              strategyOf (run afterCall store calls).jobs args.jobId = some strategyId then args.amount else 0) +
            usedByOthers (run afterCall store calls) walletId strategyId args.quoteToken day args.jobId := by
  have step : ∀ (store : TurnoverStore) (call : Call), Within limitOf store → Named limitOf store call →
      Within limitOf (afterCall store call) := fun _ _ => afterCall_within
  have within := run_keeps step (fresh_within limitOf fresh) named
  exact ⟨within.bounded, fun _ _ _ threw => call_throws threw,
    fun _ _ _ priced row opened returned => reserve_moves priced row opened returned⟩

def crossing : List Call :=
  [.createJob 1 7, .createJob 2 7, .reserve ⟨1, 1, 5, 60, 100, 86000⟩, .reserve ⟨2, 1, 5, 40, 100, 86100⟩,
    .reserve ⟨1, 1, 5, 70, 100, 86500⟩, .commit 1 (.ok ()), .abandon 2]

def emptyStore : TurnoverStore where
  jobs := Table.empty
  reservations := Table.empty

theorem turnover_within_limits_crossing :
    Along afterCall (Named fun _ => 100) emptyStore crossing ∧
      dailyTurnoverUsed (run afterCall emptyStore crossing) 1 7 5 0 = 40 ∧
      dailyTurnoverUsed (run afterCall emptyStore crossing) 1 7 5 86400 = 70 ∧
      ∀ day, dailyTurnoverUsed (run afterCall emptyStore crossing) 1 7 5 day ≤ 100 :=
  ⟨by decide, by decide, by decide, fun day =>
    (@turnover_within_limits (fun _ => 100) emptyStore crossing rfl (by decide)).1 1 7 5 day⟩

/-- A job that names another wallet for its open reservation is checked against that wallet, while its row
goes on counting for the first one. -/
theorem turnover_over_limit_other_wallet :
    let calls : List Call := [.createJob 1 7, .createJob 2 7, .reserve ⟨1, 1, 5, 60, 100, 500⟩, .reserve ⟨2, 1, 5, 40, 100, 600⟩,
      .reserve ⟨1, 2, 5, 100, 100, 700⟩]
    dailyTurnoverUsed (run afterCall emptyStore calls) 1 7 5 0 = 140 ∧
      ¬ dailyTurnoverUsed (run afterCall emptyStore calls) 1 7 5 0 ≤ 100 := by
  decide

end LpTerminal.Turnover
