import LpTerminal.Fables.Signer
import Mathlib.Data.List.Infix
import Mathlib.Data.Set.Insert

/-!
What the Fables functions do to the journal: which rows they add or leave unresolved, and that every
recorded fact stays the fact of its receipt.
-/

namespace LpTerminal.Fables

open Durable Store

abbrev TxKey := ℕ ×ₗ ℕ

def txKey (id : JobId) (ordinal : Nat) : TxKey := toLex (id, ordinal)

def openKeys (store : FablesStore) : Set TxKey :=
  {key | ∃ tx ∈ store.transactions.rows, tx.state.unresolved ∧ tx.key = key}

def slots (store : FablesStore) : Set (TxKey × Hash) :=
  {slot | ∃ tx ∈ store.transactions.rows, (tx.key, tx.hash) = slot}

structure Recorded (chain : Hash → FablesReceipt) (store : FablesStore) : Prop where
  known : ∀ tx ∈ store.transactions.rows, ∀ facts, tx.facts = some facts → facts = (chain tx.hash).facts
  final : ∀ tx ∈ store.transactions.rows, tx.state.unresolved = false → tx.facts.isSome
  gas : ∀ entry ∈ store.ledger, entry.kind = .gas → entry.token = zeroAddress ∧ entry.amount = (chain entry.txHash).facts.cost
  once : store.ledger.Pairwise fun first second => second.sameFact first = false
  cycles : ∀ entry ∈ store.ledger, entry.kind ≠ .gas → ∃ job ∈ store.jobs.rows, job.id = entry.jobId ∧ job.state = .completed

/-- A piece of work leaves at most `opens` unresolved and at most the rows `rows`; the ledger only grows. -/
structure Advance (chain : Hash → FablesReceipt) (start after : FablesStore) (opens : Set TxKey) (rows : Set (TxKey × Hash)) : Prop where
  unresolved : openKeys after ⊆ opens
  slots : slots after ⊆ rows
  recorded : Recorded chain start → Recorded chain after
  ledger : start.ledger <+: after.ledger

abbrev Still (chain : Hash → FablesReceipt) (start after : FablesStore) : Prop :=
  Advance chain start after (openKeys start) (slots start)

variable {chain : Hash → FablesReceipt} {start middle after store : FablesStore} {opens : Set TxKey} {rows : Set (TxKey × Hash)}
  {α β : Type}

theorem Still.refl (chain : Hash → FablesReceipt) (store : FablesStore) : Still chain store store :=
  ⟨subset_rfl, subset_rfl, fun recorded => recorded, List.prefix_rfl⟩

theorem Advance.still (first : Advance chain start middle opens rows) (next : Still chain middle after) :
    Advance chain start after opens rows where
  unresolved := next.unresolved.trans first.unresolved
  slots := next.slots.trans first.slots
  recorded recorded := next.recorded (first.recorded recorded)
  ledger := first.ledger.trans next.ledger

theorem Advance.mono {opens' : Set TxKey} {rows' : Set (TxKey × Hash)} (advance : Advance chain start after opens rows)
    (wider : opens ⊆ opens') (more : rows ⊆ rows') : Advance chain start after opens' rows' :=
  ⟨advance.unresolved.trans wider, advance.slots.trans more, advance.recorded, advance.ledger⟩

def Does (chain : Hash → FablesReceipt) (start : FablesStore) (program : FablesProgram α) (opens : Set TxKey)
    (rows : Set (TxKey × Hash)) : Prop :=
  Recorded chain start →
    Triple (· = start) program (fun _ after => Advance chain start after opens rows) fun after => Advance chain start after opens rows

def Rests (chain : Hash → FablesReceipt) (program : FablesProgram α) : Prop :=
  ∀ start, Does chain start program (openKeys start) (slots start)

variable {program : FablesProgram α}

theorem does_bind {next : α → FablesProgram β} (first : Does chain start program opens rows)
    (rests : ∀ a, Rests chain (next a)) : Does chain start (program >>= next) opens rows := by
  intro recorded
  refine triple_bind (first recorded) fun a => triple_each fun middle advance => ?_
  exact triple_weaken (rests a middle (advance.recorded recorded)) (fun _ here => here) (fun _ _ still => advance.still still) fun _ still => advance.still still

theorem rests_bind {next : α → FablesProgram β} (first : Rests chain program)
    (rests : ∀ a, Rests chain (next a)) : Rests chain (program >>= next) :=
  fun start => does_bind (first start) rests

theorem rests_pure (a : α) : Rests chain (pure a : FablesProgram α) :=
  fun _ _ _ same => same ▸ Still.refl chain _

theorem rests_fail (e : FablesError) : Rests chain (fail e : FablesProgram α) :=
  fun _ _ _ same => same ▸ Still.refl chain _

theorem rests_reply (answer : Except FablesError α) : Rests chain (reply answer : FablesProgram α) :=
  fun _ _ => triple_reply (fun _ _ same _ => same ▸ Still.refl chain _) fun _ _ same _ => same ▸ Still.refl chain _

theorem does_fail (e : FablesError) : Does chain start (fail e : FablesProgram α) (openKeys start) (slots start) :=
  rests_fail e start

theorem does_read {next : FablesStore → FablesProgram α} (does : Does chain start (next start) opens rows) :
    Does chain start (read >>= next) opens rows := by
  intro recorded
  refine triple_bind (Q := fun told after => told = start ∧ after = start) (triple_read fun _ same => ⟨same, same⟩) fun told => ?_
  exact triple_assume fun here => here ▸ does recorded

theorem rests_read {next : FablesStore → FablesProgram α} (does : ∀ start, Does chain start (next start) (openKeys start) (slots start)) :
    Rests chain (read >>= next) :=
  fun start => does_read (does start)

theorem does_write {update : FablesStore → FablesStore} (advance : Advance chain start (update start) opens rows) :
    Does chain start (write update : FablesProgram Unit) opens rows :=
  fun _ _ same => same ▸ advance

theorem still_putJob {job row : FablesJob} (read : store.jobs.get? job.id = some row) (opened : row.state ≠ .completed) :
    Still chain store (store.putJob job) where
  unresolved := subset_rfl
  slots := subset_rfl
  ledger := List.prefix_rfl
  recorded recorded := by
    refine ⟨recorded.known, recorded.final, recorded.gas, recorded.once, fun entry member cycle => ?_⟩
    obtain ⟨other, old, own, completed⟩ := recorded.cycles entry member cycle
    refine ⟨other, Table.mem_put.mpr (Or.inr ⟨old, fun same => ?_⟩), own, completed⟩
    have found := Table.get?_of_mem old
    rw [same] at found
    cases found.symm.trans read
    exact opened completed

theorem still_markStrategy (id : StrategyId) (state : FablesStrategyState) : Still chain store (FablesStore.markStrategy id state store) := by
  unfold FablesStore.markStrategy
  split
  · exact Still.refl chain store
  · exact ⟨subset_rfl, subset_rfl, fun recorded => ⟨recorded.known, recorded.final, recorded.gas, recorded.once, recorded.cycles⟩,
      List.prefix_rfl⟩

theorem rests_markStrategy (id : StrategyId) (state : FablesStrategyState) :
    Rests chain (write (FablesStore.markStrategy id state) : FablesProgram Unit) :=
  fun _ => does_write (still_markStrategy id state)

variable {id : JobId}

theorem setFablesJobProgress_rests {args : Progress} : Rests chain (setFablesJobProgress id args) := by
  refine rests_read fun start => ?_
  cases read : start.jobs.get? id with
  | none => exact does_fail _
  | some row =>
    dsimp only
    split
    · exact does_fail _
    rename_i notClosed
    have own : row.id = id := Table.get?_key read
    refine does_bind (does_write (still_putJob (own ▸ read) fun completed => notClosed (Or.inl completed))) fun _ => ?_
    split
    · exact rests_markStrategy _ _
    split
    · exact rests_markStrategy _ _
    · exact rests_pure _

theorem quarantine_still (store : FablesStore) : Still chain store (left quarantineInterruptedFablesJobs store) := by
  have folded : ∀ (jobs : List FablesJob) (middle : FablesStore), (∀ job ∈ jobs, job.state = .running ∧ middle.jobs.get? job.id = some job) →
      (jobs.map FablesJob.id).Nodup → Still chain store middle →
      Still chain store (jobs.foldl (fun after row => FablesStore.markStrategy row.strategyId .recovery
        (after.putJob { row with state := .recovery, errorCode := some .interrupted })) middle) := by
    intro jobs
    induction jobs with
    | nil => exact fun _ _ _ still => still
    | cons job rest ih =>
      intro middle running distinct still
      obtain ⟨⟨state, read⟩, later⟩ := List.forall_mem_cons.mp running
      obtain ⟨missing, distinct⟩ := List.nodup_cons.mp distinct
      have opened : job.state ≠ .completed := by rw [state]; decide
      refine ih _ (fun other member => ⟨(later other member).1, ?_⟩) distinct
        ((still.still (@still_putJob chain middle { job with state := .recovery, errorCode := some .interrupted } job read opened)).still
          (still_markStrategy _ _))
      have apart : other.id ≠ job.id := fun same => missing (List.mem_map.mpr ⟨other, member, same⟩)
      have kept : (FablesStore.markStrategy job.strategyId .recovery
          (middle.putJob { job with state := .recovery, errorCode := some .interrupted })).jobs =
          middle.jobs.put { job with state := .recovery, errorCode := some .interrupted } := by
        unfold FablesStore.markStrategy
        split <;> rfl
      rw [kept, Table.get?_put_other (by exact apart)]
      exact (later other member).2
  refine folded _ store (fun job member => ?_) ?_ (Still.refl chain store)
  · obtain ⟨old, running⟩ := List.mem_filter.mp member
    exact ⟨of_decide_eq_true running, Table.get?_of_mem old⟩
  · have distinct : (store.jobs.rows.map FablesJob.id).Nodup :=
      List.pairwise_map.mpr (store.jobs.sorted.imp fun before => before.ne)
    exact distinct.sublist (List.filter_sublist.map _)

theorem failFablesJobBeforeMutation_rests {code : FablesError} : Rests chain (failFablesJobBeforeMutation id code) := by
  refine rests_read fun start => ?_
  cases read : start.jobs.get? id with
  | none => exact does_fail _
  | some job =>
    dsimp only
    split
    · exact does_fail _
    rename_i opened
    split
    · exact does_fail _
    have own : job.id = id := Table.get?_key read
    have notCompleted : job.state ≠ .completed := fun completed => by rw [completed] at opened; exact opened (by decide)
    exact does_write ((still_putJob (own ▸ read) notCompleted).still (still_markStrategy _ _))

theorem cancelFablesJobBackInRange_rests : Rests chain (cancelFablesJobBackInRange id) := by
  refine rests_read fun start => ?_
  cases read : start.jobs.get? id with
  | none => exact does_fail _
  | some job =>
    dsimp only
    split
    · exact does_fail _
    rename_i opened
    split
    · exact does_fail _
    have own : job.id = id := Table.get?_key read
    have notCompleted : job.state ≠ .completed := fun completed => by rw [completed] at opened; exact opened (Or.inl (by decide))
    exact does_write ((still_putJob (own ▸ read) notCompleted).still (still_markStrategy _ _))

theorem toRecovery_rests {errorCode thrown : FablesError} : Rests chain (toRecovery id errorCode thrown) :=
  rests_bind setFablesJobProgress_rests fun _ => rests_fail _

theorem fablesAttention_rests {code : FablesError} : Rests chain (fablesAttention id code) := by
  refine rests_read fun start => ?_
  split
  · exact rests_pure _ _
  split
  · exact rests_pure _ _
  refine (rests_bind ?_ fun done => ?_ : Rests chain _) start
  · refine fun start recorded => triple_rescue ((rests_bind ?_ fun _ => rests_pure _ : Rests chain _) start recorded) fun _ _ still => still
    split
    · exact cancelFablesJobBackInRange_rests
    split
    · exact failFablesJobBeforeMutation_rests
    · exact setFablesJobProgress_rests
  · split
    · exact rests_pure _
    · exact setFablesJobProgress_rests

variable {tx : FablesJobTx}

theorem mem_openKeys_putTx {key : TxKey} :
    key ∈ openKeys (store.putTx tx) ↔ (tx.state.unresolved ∧ tx.key = key) ∨ (key ∈ openKeys store ∧ key ≠ tx.key) := by
  constructor
  · rintro ⟨other, member, opened, rfl⟩
    rcases Table.mem_put.mp member with rfl | ⟨old, apart⟩
    · exact Or.inl ⟨opened, rfl⟩
    · exact Or.inr ⟨⟨other, old, opened, rfl⟩, apart⟩
  · rintro (⟨opened, same⟩ | ⟨⟨other, old, opened, rfl⟩, apart⟩)
    · exact ⟨tx, Table.mem_put.mpr (Or.inl rfl), opened, same⟩
    · exact ⟨other, Table.mem_put.mpr (Or.inr ⟨old, apart⟩), opened, rfl⟩

theorem slots_putTx : slots (store.putTx tx) ⊆ insert (tx.key, tx.hash) (slots store) := by
  rintro slot ⟨other, member, rfl⟩
  rcases Table.mem_put.mp member with rfl | ⟨old, _⟩
  · exact Set.mem_insert _ _
  · exact Set.mem_insert_of_mem _ ⟨other, old, rfl⟩

theorem recorded_putTx (recorded : Recorded chain store)
    (known : ∀ facts, tx.facts = some facts → facts = (chain tx.hash).facts) (final : tx.state.unresolved = false → tx.facts.isSome) :
    Recorded chain (store.putTx tx) where
  gas := recorded.gas
  once := recorded.once
  cycles := recorded.cycles
  known other member := by
    rcases Table.mem_put.mp member with rfl | ⟨old, _⟩
    · exact known
    · exact recorded.known other old
  final other member := by
    rcases Table.mem_put.mp member with rfl | ⟨old, _⟩
    · exact final
    · exact recorded.final other old

variable {ordinal : Nat}

theorem key_of_get? {row : FablesJobTx} (read : store.transactions.get? (toLex (id, ordinal)) = some row) :
    row.key = txKey id ordinal := Table.get?_key read

theorem slot_of_get? {row : FablesJobTx} (read : store.transactions.get? (toLex (id, ordinal)) = some row) :
    (txKey id ordinal, row.hash) ∈ slots store :=
  ⟨row, Table.get?_mem read, by rw [key_of_get? read]⟩

theorem updateFablesTx_final {state : FablesTxState} {facts : FablesReceiptFacts}
    {errorCode : Option FablesError} (final : state.unresolved = false)
    (known : ∀ hash, (txKey id ordinal, hash) ∈ slots start → facts = (chain hash).facts) :
    Does chain start (updateFablesTx id ordinal state (some facts) errorCode) (openKeys start \ {txKey id ordinal}) (slots start) := by
  refine does_read ?_
  cases read : start.transactions.get? (toLex (id, ordinal)) with
  | none =>
    refine fun recorded => triple_weaken (does_fail _ recorded) (fun _ here => here) (fun _ _ still => ?_) fun _ still => ?_
    all_goals
      refine ⟨fun key inside => ⟨still.unresolved inside, fun same => ?_⟩, still.slots, still.recorded, still.ledger⟩
      obtain ⟨tx, member, _, own⟩ := still.unresolved inside
      have found := Table.get?_of_mem member
      rw [own, Set.mem_singleton_iff.mp same] at found
      cases read.symm.trans found
  | some row =>
    have own := key_of_get? read
    refine does_write ⟨fun key inside => ?_, fun slot inside => ?_, fun recorded => ?_, List.prefix_rfl⟩
    · rcases mem_openKeys_putTx.mp inside with ⟨opened, _⟩ | ⟨before, apart⟩
      · rw [final] at opened
        cases opened
      · exact ⟨before, fun same => apart ((Set.mem_singleton_iff.mp same).trans own.symm)⟩
    · rcases slots_putTx inside with same | before
      · rw [same]
        exact ⟨row, Table.get?_mem read, rfl⟩
      · exact before
    · refine recorded_putTx recorded (fun stored same => ?_) fun _ => rfl
      cases same
      exact known row.hash (slot_of_get? read)

theorem updateFablesTx_sent :
    Does chain start (updateFablesTx id ordinal .sent none none) (insert (txKey id ordinal) (openKeys start)) (slots start) := by
  refine does_read ?_
  cases read : start.transactions.get? (toLex (id, ordinal)) with
  | none =>
    exact fun recorded => triple_weaken (does_fail _ recorded) (fun _ here => here)
      (fun _ _ still => still.mono (Set.subset_insert _ _) subset_rfl) fun _ still => still.mono (Set.subset_insert _ _) subset_rfl
  | some row =>
    have own := key_of_get? read
    refine does_write ⟨fun key inside => ?_, fun slot inside => ?_, fun recorded => ?_, List.prefix_rfl⟩
    · rcases mem_openKeys_putTx.mp inside with ⟨_, same⟩ | ⟨before, _⟩
      · exact Or.inl (same.symm.trans own)
      · exact Or.inr before
    · rcases slots_putTx inside with same | before
      · rw [same]
        exact ⟨row, Table.get?_mem read, rfl⟩
      · exact before
    · exact recorded_putTx recorded (recorded.known row (Table.get?_mem read)) fun closed => nomatch closed

theorem recordFablesTxIntent_does {intent : TxIntent} :
    Does chain start (recordFablesTxIntent intent) (insert (txKey intent.jobId intent.ordinal) (openKeys start))
      (insert (txKey intent.jobId intent.ordinal, intent.hash) (slots start)) := by
  have refused : ∀ e, Does chain start (fail e : FablesProgram Unit) (insert (txKey intent.jobId intent.ordinal) (openKeys start))
      (insert (txKey intent.jobId intent.ordinal, intent.hash) (slots start)) := fun e recorded =>
    triple_weaken (does_fail e recorded) (fun _ here => here)
      (fun _ _ still => still.mono (Set.subset_insert _ _) (Set.subset_insert _ _)) fun _ still =>
        still.mono (Set.subset_insert _ _) (Set.subset_insert _ _)
  refine does_read ?_
  split
  · exact refused _
  split
  · exact refused _
  split
  · exact refused _
  split
  · exact refused _
  split
  · exact refused _
  refine does_write ⟨fun key inside => ?_, slots_putTx, fun recorded => ?_, List.prefix_rfl⟩
  · rcases mem_openKeys_putTx.mp inside with ⟨_, same⟩ | ⟨before, _⟩
    · exact Or.inl same.symm
    · exact Or.inr before
  · exact recorded_putTx recorded (fun _ same => nomatch same) fun closed => nomatch closed

theorem review_unresolved (id : JobId) (tx : FablesJobTx) : (tx.review id).state.unresolved = tx.state.unresolved := by
  unfold FablesJobTx.review
  split
  · rename_i failed
    rw [failed.2]
    rfl
  · rfl

theorem review_same (id : JobId) (tx : FablesJobTx) : (tx.review id).hash = tx.hash ∧ (tx.review id).facts = tx.facts := by
  unfold FablesJobTx.review
  split <;> exact ⟨rfl, rfl⟩

theorem still_review (id : JobId) :
    Still chain store { store with transactions := store.transactions.adjust (FablesJobTx.review id) (review_key id) } where
  unresolved := by
    rintro key ⟨other, member, opened, rfl⟩
    obtain ⟨tx, old, rfl⟩ := List.mem_map.mp member
    exact ⟨tx, old, review_unresolved id tx ▸ opened, (review_key id tx).symm⟩
  slots := by
    rintro slot ⟨other, member, rfl⟩
    obtain ⟨tx, old, rfl⟩ := List.mem_map.mp member
    exact ⟨tx, old, by rw [review_key, (review_same id tx).1]⟩
  ledger := List.prefix_rfl
  recorded recorded := by
    refine ⟨fun other member => ?_, fun other member => ?_, recorded.gas, recorded.once, recorded.cycles⟩
    · obtain ⟨tx, old, rfl⟩ := List.mem_map.mp member
      rw [(review_same id tx).1, (review_same id tx).2]
      exact recorded.known tx old
    · obtain ⟨tx, old, rfl⟩ := List.mem_map.mp member
      rw [review_unresolved, (review_same id tx).2]
      exact recorded.final tx old

theorem resumeFablesJob_rests : Rests chain (resumeFablesJob id) := by
  refine rests_read fun start => ?_
  cases read : start.jobs.get? id with
  | none => exact does_fail _
  | some job =>
    dsimp only
    split
    · exact does_fail _
    rename_i state
    split
    · exact does_fail _
    have own : job.id = id := Table.get?_key read
    have notCompleted : job.state ≠ .completed := by rw [not_not.mp state]; decide
    exact does_write (((still_review id).still (still_putJob (own ▸ read) notCompleted)).still (still_markStrategy _ _))

section Facts

variable {ledger : List FablesLedgerEntry} {entry other : FablesLedgerEntry}

theorem sameFact_iff : entry.sameFact other ↔
    entry.jobId = other.jobId ∧ entry.txHash = other.txHash ∧ entry.kind = other.kind ∧ entry.token = other.token := by
  simp only [FablesLedgerEntry.sameFact, Bool.and_eq_true, decide_eq_true_eq, and_assoc]

theorem insertFact_extends (ledger : List FablesLedgerEntry) (entry : FablesLedgerEntry) : ledger <+: insertFact ledger entry := by
  unfold insertFact
  split
  · exact List.prefix_rfl
  · exact List.prefix_append _ _

theorem mem_insertFact (member : other ∈ insertFact ledger entry) : other ∈ ledger ∨ other = entry := by
  unfold insertFact at member
  split at member
  · exact Or.inl member
  · exact (List.mem_append.mp member).imp_right List.mem_singleton.mp

theorem once_insertFact (once : ledger.Pairwise fun first second => second.sameFact first = false) :
    (insertFact ledger entry).Pairwise fun first second => second.sameFact first = false := by
  unfold insertFact
  split
  · exact once
  · rename_i fresh
    refine List.pairwise_append.mpr ⟨once, List.pairwise_singleton _ _, fun old member new last => ?_⟩
    rw [List.mem_singleton.mp last]
    exact Bool.eq_false_iff.mpr fun same => fresh (List.any_eq_true.mpr ⟨old, member, same⟩)

theorem insertFact_present (ledger : List FablesLedgerEntry) (entry : FablesLedgerEntry) :
    ∃ row ∈ insertFact ledger entry, entry.sameFact row := by
  unfold insertFact
  split
  · rename_i found
    obtain ⟨row, member, same⟩ := List.any_eq_true.mp found
    exact ⟨row, member, same⟩
  · exact ⟨entry, List.mem_append_right _ (List.mem_singleton_self _), sameFact_iff.mpr ⟨rfl, rfl, rfl, rfl⟩⟩

theorem foldl_insertFact_extends (entries ledger : List FablesLedgerEntry) : ledger <+: entries.foldl insertFact ledger := by
  induction entries generalizing ledger with
  | nil => exact List.prefix_rfl
  | cons entry rest ih => exact (insertFact_extends ledger entry).trans (ih _)

theorem foldl_insertFact {entries : List FablesLedgerEntry} (once : ledger.Pairwise fun first second => second.sameFact first = false) :
    (∀ row ∈ entries.foldl insertFact ledger, row ∈ ledger ∨ row ∈ entries) ∧
      (entries.foldl insertFact ledger).Pairwise (fun first second => second.sameFact first = false) ∧
      ∀ entry ∈ entries, ∃ row ∈ entries.foldl insertFact ledger, entry.sameFact row := by
  induction entries generalizing ledger with
  | nil => exact ⟨fun _ member => Or.inl member, once, fun _ member => nomatch member⟩
  | cons entry rest ih =>
    obtain ⟨inside, distinct, present⟩ := ih (@once_insertFact ledger entry once)
    refine ⟨fun row member => ?_, distinct, List.forall_mem_cons.mpr ⟨?_, present⟩⟩
    · rcases inside row member with early | late
      · rcases mem_insertFact early with old | same
        · exact Or.inl old
        · exact Or.inr (by rw [same]; exact List.mem_cons_self)
      · exact Or.inr (List.mem_cons_of_mem _ late)
    · obtain ⟨row, member, same⟩ := insertFact_present ledger entry
      exact ⟨row, (foldl_insertFact_extends rest _).subset member, same⟩

theorem foldl_insertFact_fresh {entries : List FablesLedgerEntry} (fresh : ∀ entry ∈ entries, ∀ row ∈ ledger, entry.sameFact row = false)
    (apart : entries.Pairwise fun first second => second.sameFact first = false) : entries.foldl insertFact ledger = ledger ++ entries := by
  induction entries generalizing ledger with
  | nil => rw [List.foldl_nil, List.append_nil]
  | cons entry rest ih =>
    obtain ⟨ahead, apart⟩ := List.pairwise_cons.mp apart
    obtain ⟨own, later⟩ := List.forall_mem_cons.mp fresh
    have inserted : insertFact ledger entry = ledger ++ [entry] := by
      unfold insertFact
      rw [if_neg fun found => ?_]
      obtain ⟨row, member, same⟩ := List.any_eq_true.mp found
      rw [own row member] at same
      cases same
    rw [List.foldl_cons, inserted, ih (fun other member row old => ?_) apart, List.append_assoc, List.singleton_append]
    rcases List.mem_append.mp old with before | new
    · exact later other member row before
    · rw [List.mem_singleton.mp new]
      exact ahead other member

end Facts

variable {job : FablesJob} {hash : Hash}

theorem recorded_insertGas (recorded : Recorded chain store) :
    Recorded chain { store with ledger := insertFact store.ledger (gasEntry job hash (chain hash).facts) } where
  known := recorded.known
  final := recorded.final
  once := once_insertFact recorded.once
  gas entry member kind := by
    rcases mem_insertFact member with old | same
    · exact recorded.gas entry old kind
    · rw [same]
      exact ⟨rfl, rfl⟩
  cycles entry member kind := by
    rcases mem_insertFact member with old | same
    · exact recorded.cycles entry old kind
    · rw [same] at kind
      exact absurd rfl kind

theorem appendGas_rests {facts : FablesReceiptFacts} (known : facts = (chain hash).facts) :
    Rests chain (appendFablesLedger (gasEntry job hash facts)) := by
  subst known
  exact fun start => does_write ⟨subset_rfl, subset_rfl, recorded_insertGas, insertFact_extends _ _⟩

def HasGas (job : FablesJob) (tx : FablesJobTx) (ledger : List FablesLedgerEntry) : Prop :=
  ∃ entry ∈ ledger, entry.jobId = job.id ∧ entry.txHash = tx.hash ∧ entry.kind = .gas

variable {alive : Nat → Except FablesError Unit}

theorem rebuildGas_does {txs : List FablesJobTx}
    (known : ∀ tx ∈ txs, ∀ facts, tx.facts = some facts → facts = (chain tx.hash).facts) :
    Rests chain (rebuildGas job alive txs) := by
  induction txs with
  | nil => exact rests_pure _
  | cons tx rest ih =>
    obtain ⟨own, later⟩ := List.forall_mem_cons.mp known
    unfold rebuildGas
    refine rests_bind (rests_reply _) fun _ => ?_
    split
    · exact ih later
    split
    · exact rests_fail _
    · rename_i facts read
      exact rests_bind (appendGas_rests (own facts read)) fun _ => ih later

theorem rebuildGas_returns {txs : List FablesJobTx}
    (ran : (rebuildGas job alive txs).run start = (.ok (), after)) :
    after.transactions = start.transactions ∧ start.ledger <+: after.ledger ∧
      ∀ tx ∈ txs, tx.state.unresolved = false → HasGas job tx after.ledger := by
  induction txs generalizing start with
  | nil =>
    cases ran
    exact ⟨rfl, List.prefix_rfl, fun _ member => nomatch member⟩
  | cons tx rest ih =>
    unfold rebuildGas at ran
    obtain ⟨_, middle, lived, went⟩ := bind_returns ran
    have same : middle = start := (congrArg Prod.snd lived).symm
    rw [same] at went
    split at went
    · rename_i opened
      obtain ⟨rows, grows, others⟩ := ih went
      refine ⟨rows, grows, List.forall_mem_cons.mpr ⟨fun closed => ?_, others⟩⟩
      rw [closed] at opened
      cases opened
    split at went
    · cases went
    · obtain ⟨_, appended, wrote, went⟩ := bind_returns went
      cases wrote
      obtain ⟨rows, grows, others⟩ := ih went
      obtain ⟨entry, member, found⟩ := insertFact_present start.ledger (gasEntry job tx.hash _)
      obtain ⟨own, hash, kind, _⟩ := sameFact_iff.mp found
      exact ⟨rows, (insertFact_extends _ _).trans grows,
        List.forall_mem_cons.mpr ⟨fun _ => ⟨entry, grows.subset member, own.symm, hash.symm, kind.symm⟩, others⟩⟩

theorem rests_atomically (does : Does chain start program (openKeys start) (slots start)) :
    Does chain start (atomically program) (openKeys start) (slots start) := by
  intro recorded
  refine triple_atomically fun s same => ?_
  subst same
  exact triple_weaken (does recorded) (fun _ here => here) (fun _ _ still => still) fun _ _ => Still.refl chain s

variable {facts : List FablesCycleFact}

theorem still_completed {next : FablesConfig}
    (read : store.jobs.get? job.id = some job) (opened : job.state ≠ .completed) : Still chain store (completedWrites job next facts store) := by
  refine ⟨subset_rfl, subset_rfl, fun recorded => ?_, ?_⟩
  · obtain ⟨inside, once, _⟩ := @foldl_insertFact store.ledger (facts.map (FablesCycleFact.entry job)) recorded.once
    refine ⟨recorded.known, recorded.final, fun entry member kind => ?_, once, fun entry member kind => ?_⟩
    · rcases inside entry member with old | new
      · exact recorded.gas entry old kind
      · obtain ⟨fact, _, rfl⟩ := List.mem_map.mp new
        cases kind
    · rcases inside entry member with old | new
      · have kept : Still chain store (store.putJob { job with state := .completed, errorCode := none }) := still_putJob read opened
        exact (kept.recorded recorded).cycles entry old kind
      · obtain ⟨fact, _, rfl⟩ := List.mem_map.mp new
        exact ⟨_, Table.mem_put.mpr (Or.inl rfl), rfl, rfl⟩
  · exact foldl_insertFact_extends _ _

theorem completeFablesJob_rests {newRef : FablesPositionRef}
    {parsed rest : Except FablesError Unit} : Rests chain (completeFablesJob id newRef facts parsed rest) := by
  refine rests_read fun start => ?_
  cases read : start.jobs.get? id with
  | none => exact does_fail _
  | some job =>
    dsimp only
    split
    · exact does_fail _
    rename_i stage
    split
    · exact does_fail _
    have own : job.id = id := Table.get?_key read
    have opened : job.state ≠ .completed := fun completed => stage (Or.inl (by rw [completed]; decide))
    refine rests_atomically (does_read ?_)
    split
    · exact does_fail _
    split
    · exact does_fail _
    intro recorded
    refine triple_bind (Q := fun _ middle => middle = start) (triple_reply (fun _ _ same _ => same) fun _ _ same _ => same ▸
      Still.refl chain _) fun _ => ?_
    exact does_bind (does_write (still_completed (own ▸ read) opened)) (fun _ => rests_bind (rests_reply _) fun _ => rests_pure _) recorded

theorem completeFablesJob_atomic {newRef : FablesPositionRef}
    {parsed rest : Except FablesError Unit} {outcome : Except FablesError FablesConfig}
    (ran : (completeFablesJob id newRef facts parsed rest).run start = (outcome, after)) :
    (∃ e, outcome = .error e ∧ after = start) ∨
      ∃ job row, start.jobs.get? id = some job ∧ (job.state = .running ∨ job.state = .recovery) ∧
        start.strategies.get? job.strategyId = some row ∧
        outcome = .ok { row.config with positionRef := newRef, revision := row.config.revision + 1 } ∧
        after = completedWrites job { row.config with positionRef := newRef, revision := row.config.revision + 1 } facts start := by
  have all : Triple (· = start) (completeFablesJob id newRef facts parsed rest)
      (fun config after => ∃ job row, start.jobs.get? id = some job ∧ (job.state = .running ∨ job.state = .recovery) ∧
        start.strategies.get? job.strategyId = some row ∧
        config = { row.config with positionRef := newRef, revision := row.config.revision + 1 } ∧
        after = completedWrites job { row.config with positionRef := newRef, revision := row.config.revision + 1 } facts start)
      fun after => after = start := by
    refine triple_bind (Q := fun told after => told = start ∧ after = start) (triple_read fun _ same => ⟨same, same⟩) fun told => ?_
    refine triple_assume fun here => ?_
    subst here
    cases read : told.jobs.get? id with
    | none => exact triple_fail fun _ same => same
    | some job =>
      dsimp only
      split
      · exact triple_fail fun _ same => same
      rename_i stage
      split
      · exact triple_fail fun _ same => same
      refine triple_atomically fun s same => ?_
      subst same
      refine triple_bind (Q := fun told after => told = s ∧ after = s) (triple_read fun _ same => ⟨same, same⟩) fun told => ?_
      refine triple_assume fun here => ?_
      subst here
      cases found : told.strategies.get? job.strategyId with
      | none => exact triple_fail fun _ _ => rfl
      | some row =>
        dsimp only
        split
        · exact triple_fail fun _ _ => rfl
        refine triple_bind (Q := fun _ after => after = told) (triple_reply (fun _ _ same _ => same) fun _ _ _ _ => rfl) fun _ => ?_
        refine triple_bind (Q := fun _ after => after = completedWrites job
          { row.config with positionRef := newRef, revision := row.config.revision + 1 } facts told)
          (triple_write fun _ same => by rw [same]) fun _ => ?_
        refine triple_bind (Q := fun _ after => after = completedWrites job
          { row.config with positionRef := newRef, revision := row.config.revision + 1 } facts told)
          (triple_reply (fun _ _ same _ => same) fun _ _ _ _ => rfl) fun _ => ?_
        refine triple_pure fun _ same => ⟨job, row, rfl, ?_, found, rfl, same⟩
        by_contra neither
        exact stage (Or.inl (not_or.mp neither))
  have result := all start rfl
  rw [ran] at result
  cases outcome with
  | ok config =>
    obtain ⟨job, row, read, state, found, config, written⟩ := result
    exact Or.inr ⟨job, row, read, state, found, by rw [config], written⟩
  | error e => exact Or.inl ⟨e, rfl, result⟩

theorem fablesJobTransactions_known (recorded : Recorded chain store) (id : JobId) :
    ∀ tx ∈ fablesJobTransactions store id, ∀ facts, tx.facts = some facts → facts = (chain tx.hash).facts :=
  fun tx member => recorded.known tx (List.mem_of_mem_filter member)

variable {args : SendArgs}

theorem signFables_does {env : SignerEnv} {reads : Except FablesError Nat} :
    Does chain start (signFables env args reads) (insert (txKey args.job.id args.ordinal) (openKeys start))
      (insert (txKey args.job.id args.ordinal, args.hash) (slots start)) := by
  have rests : ∀ {program : FablesProgram Unit}, Rests chain program → Does chain start program
      (insert (txKey args.job.id args.ordinal) (openKeys start)) (insert (txKey args.job.id args.ordinal, args.hash) (slots start)) :=
    fun still recorded => triple_weaken (still start recorded) (fun _ here => here)
      (fun _ _ still => still.mono (Set.subset_insert _ _) (Set.subset_insert _ _)) fun _ still =>
        still.mono (Set.subset_insert _ _) (Set.subset_insert _ _)
  unfold signFables
  split
  · exact rests (rests_fail _)
  split
  · exact rests (rests_fail _)
  split
  · exact rests (rests_fail _)
  split
  · exact rests (rests_fail _)
  refine does_read ?_
  split
  · exact rests (rests_fail _)
  split
  · exact rests (rests_fail _)
  intro recorded
  refine triple_bind (Q := fun _ middle => middle = start) (triple_reply (fun _ _ same _ => same) fun _ _ same _ => same ▸
    (Still.refl chain _).mono (Set.subset_insert _ _) (Set.subset_insert _ _)) fun nonce => ?_
  exact recordFablesTxIntent_does recorded

theorem broadcastAnswered_does {returned : Except FablesError Hash} :
    Does chain start (broadcastAnswered args returned) (insert (txKey args.job.id args.ordinal) (openKeys start)) (slots start) := by
  have lost : ∀ thrown, Does chain start (toRecovery args.job.id .broadcastUnknown thrown)
      (insert (txKey args.job.id args.ordinal) (openKeys start)) (slots start) := fun thrown recorded =>
    triple_weaken (toRecovery_rests start recorded) (fun _ here => here)
      (fun _ _ still => still.mono (Set.subset_insert _ _) subset_rfl) fun _ still => still.mono (Set.subset_insert _ _) subset_rfl
  unfold broadcastAnswered
  split
  · split
    · exact updateFablesTx_sent
    · exact lost _
  · exact lost _

theorem known_of_names (names : ∀ other, (txKey id ordinal, other) ∈ slots start → other = hash) :
    ∀ other, (txKey id ordinal, other) ∈ slots start → (chain hash).facts = (chain other).facts :=
  fun other member => by rw [names other member]

theorem receiptAnswered_lost {e : FablesError} {alive : Except FablesError Unit} :
    Rests chain (receiptAnswered args (.error e) alive) :=
  toRecovery_rests

theorem receiptAnswered_final {alive : Except FablesError Unit}
    (names : ∀ other, (txKey args.job.id args.ordinal, other) ∈ slots start → other = args.hash) :
    Does chain start (receiptAnswered args (.ok (chain args.hash)) alive) (openKeys start \ {txKey args.job.id args.ordinal})
      (slots start) := by
  unfold receiptAnswered
  dsimp only
  split
  · exact does_bind (updateFablesTx_final rfl (known_of_names names)) fun _ => rests_bind (rests_reply _) fun _ => toRecovery_rests
  · exact does_bind (updateFablesTx_final rfl (known_of_names names)) fun _ => rests_bind (rests_reply _) fun _ => appendGas_rests rfl

theorem reconcileTx_final (names : ∀ other, (txKey tx.jobId tx.ordinal, other) ∈ slots start → other = tx.hash) :
    Does chain start (reconcileTx tx (.final (chain tx.hash))) (openKeys start \ {txKey tx.jobId tx.ordinal}) (slots start) := by
  unfold reconcileTx
  dsimp only
  split
  · exact does_bind (updateFablesTx_final rfl (known_of_names names)) fun _ => rests_pure _
  · exact does_bind (updateFablesTx_final rfl (known_of_names names)) fun _ => rests_pure _

theorem reconciled_splits (chain : Hash → FablesReceipt) (job : FablesJob) (unresolved : Nat) (alive : Nat → Except FablesError Unit) :
    ∃ verdict : FablesProgram Bool, Rests chain verdict ∧
      reconciled job unresolved alive =
        (read >>= fun store => rebuildGas job alive (fablesJobTransactions store job.id) >>= fun _ => verdict) := by
  refine ⟨_, rests_read fun middle => ?_, rfl⟩
  split
  · split
    · split
      · exact does_bind (setFablesJobProgress_rests middle) fun _ => rests_pure _
      · exact rests_pure _ middle
    · exact rests_pure _ middle
  split
  · exact does_bind (setFablesJobProgress_rests middle) fun _ => rests_pure _
  split
  · exact rests_pure _ middle
  split
  · exact does_bind (setFablesJobProgress_rests middle) fun _ => rests_pure _
  · exact rests_pure _ middle

theorem reconciled_rests {unresolved : Nat} :
    Rests chain (reconciled job unresolved alive) := by
  obtain ⟨verdict, rests, splits⟩ := reconciled_splits chain job unresolved alive
  rw [splits]
  exact fun start => does_read fun recorded =>
    does_bind (rebuildGas_does (fablesJobTransactions_known recorded job.id) start) (fun _ => rests) recorded

theorem rebroadcastChecks_rests {env : SignerEnv} {id : JobId} {ordinal : Nat} : Rests chain (rebroadcastChecks env id ordinal) := by
  refine rests_read fun start => ?_
  split
  · exact does_fail _
  split
  · exact does_fail _
  split
  · exact does_fail _
  split
  · exact does_fail _
  split
  · exact does_fail _
  split
  · exact does_fail _
  split
  · exact does_fail _
  split
  · exact does_fail _
  · exact rests_pure _ start

theorem rebroadcastAnswered_does {returned : Except FablesError Hash} :
    Does chain start (rebroadcastAnswered id ordinal hash returned) (insert (txKey id ordinal) (openKeys start)) (slots start) := by
  have refused : ∀ e, Does chain start (fail e : FablesProgram Unit) (insert (txKey id ordinal) (openKeys start)) (slots start) :=
    fun e recorded => triple_weaken (does_fail e recorded) (fun _ here => here)
      (fun _ _ still => still.mono (Set.subset_insert _ _) subset_rfl) fun _ still => still.mono (Set.subset_insert _ _) subset_rfl
  unfold rebroadcastAnswered
  split
  · exact refused _
  · split
    · exact refused _
    · exact updateFablesTx_sent

end LpTerminal.Fables
