import Mathlib.Order.Nat

/-!
The lock of a wallet: a chain of promises, and the map that holds the last one of each wallet.
-/

namespace LpTerminal.WalletLock

inductive Phase
  | waiting
  | running
  /-- The body has settled, either way. -/
  | released
  deriving DecidableEq

/-- The calls of `withWalletLock` by number, and `tails`. A call awaits the tail of `previous`, if there is one. -/
structure Lock (WalletId : Type) where
  made : ℕ
  walletId : ℕ → WalletId
  previous : ℕ → Option ℕ
  phase : ℕ → Phase
  tailSettled : ℕ → Bool
  tails : WalletId → Option ℕ

namespace Lock
variable {WalletId : Type} (lock : Lock WalletId)

/-- Whether what a call awaits has settled. -/
def ready (i : ℕ) : Bool := (lock.previous i).all lock.tailSettled

/-- Up to the await. -/
def call [DecidableEq WalletId] (walletId : WalletId) : Lock WalletId where
  made := lock.made + 1
  walletId := Function.update lock.walletId lock.made walletId
  previous := Function.update lock.previous lock.made (lock.tails walletId)
  phase := Function.update lock.phase lock.made .waiting
  tailSettled := Function.update lock.tailSettled lock.made false
  tails := Function.update lock.tails walletId (some lock.made)

def start (i : ℕ) : Lock WalletId := { lock with phase := Function.update lock.phase i .running }

/-- The `finally` of a call. -/
def finish [DecidableEq WalletId] (i : ℕ) : Lock WalletId :=
  { lock with
    phase := Function.update lock.phase i .released
    tails := if lock.tails (lock.walletId i) = some i then Function.update lock.tails (lock.walletId i) none else lock.tails }

/-- A tail settles after the one before it and the release of its own call. -/
def settleTail (i : ℕ) : Lock WalletId := { lock with tailSettled := Function.update lock.tailSettled i true }

/-- All calls of the wallet before this one have released. -/
def Clear (i : ℕ) : Prop := ∀ j < i, lock.walletId j = lock.walletId i → lock.phase j = .released

def Last (walletId : WalletId) (i : ℕ) : Prop :=
  i < lock.made ∧ lock.walletId i = walletId ∧ ∀ j < lock.made, i < j → lock.walletId j ≠ walletId

end Lock

variable {WalletId : Type}

/-- What the promises do by themselves. -/
inductive Microtask : Lock WalletId → Lock WalletId → Prop
  | tail {lock : Lock WalletId} {i : ℕ} (made : i < lock.made) (released : lock.phase i = .released) (ready : lock.ready i) :
      Microtask lock (lock.settleTail i)

inductive Step [DecidableEq WalletId] : Lock WalletId → Lock WalletId → Prop
  | call (lock : Lock WalletId) (walletId : WalletId) : Step lock (lock.call walletId)
  | start {lock : Lock WalletId} {i : ℕ} (made : i < lock.made) (waiting : lock.phase i = .waiting) (ready : lock.ready i) :
      Step lock (lock.start i)
  | finish {lock : Lock WalletId} {i : ℕ} (made : i < lock.made) (running : lock.phase i = .running) : Step lock (lock.finish i)
  | microtask {lock after : Lock WalletId} (task : Microtask lock after) : Step lock after

/-- Calls of any wallets and the ends of their bodies, in any order. -/
inductive Reachable [DecidableEq WalletId] : Lock WalletId → Prop
  | start {lock : Lock WalletId} (uncalled : lock.made = 0) (empty : ∀ walletId, lock.tails walletId = none) : Reachable lock
  | next {lock after : Lock WalletId} : Reachable lock → Step lock after → Reachable after

structure Sound (lock : Lock WalletId) : Prop where
  turns : ∀ i < lock.made, lock.phase i ≠ .waiting → lock.Clear i
  settled : ∀ i < lock.made, lock.tailSettled i → lock.phase i = .released
  first : ∀ i < lock.made, lock.previous i = none → lock.Clear i
  chained : ∀ i < lock.made, ∀ j, lock.previous i = some j → j < i ∧ lock.walletId j = lock.walletId i ∧
    ∀ k < i, j < k → lock.walletId k ≠ lock.walletId i
  held : ∀ walletId i, lock.tails walletId = some i → lock.Last walletId i ∧ lock.phase i ≠ .released
  free : ∀ walletId, lock.tails walletId = none → ∀ i < lock.made, lock.walletId i = walletId → lock.phase i = .released

theorem Sound.clear {lock : Lock WalletId} (sound : Sound lock) {i : ℕ} (made : i < lock.made) (ready : lock.ready i) : lock.Clear i := by
  unfold Lock.ready at ready
  cases before : lock.previous i with
  | none => exact sound.first i made before
  | some j =>
    rw [before] at ready
    obtain ⟨earlier, same, between⟩ := sound.chained i made j before
    have released := sound.settled j (earlier.trans made) ready
    intro k less wallet
    rcases lt_trichotomy k j with below | rfl | above
    · exact sound.turns j (earlier.trans made) (by rw [released]; decide) k below (wallet.trans same.symm)
    · exact released
    · exact absurd wallet (between k less above)

theorem Sound.call [DecidableEq WalletId] {lock : Lock WalletId} (sound : Sound lock) (walletId : WalletId) : Sound (lock.call walletId) := by
  have old : ∀ {β : Type} (f : ℕ → β) (b : β) {i : ℕ}, i < lock.made → Function.update f lock.made b i = f i :=
    fun f b _ less => Function.update_of_ne less.ne b f
  have clear : ∀ i < lock.made, (lock.call walletId).Clear i ↔ lock.Clear i := by
    intro i made
    refine forall₂_congr fun j less => ?_
    simp only [Lock.call, old _ _ (less.trans made), old _ _ made]
  have split : ∀ i < lock.made + 1, i < lock.made ∨ i = lock.made := fun i less => by omega
  constructor
  · intro i made
    rcases split i made with before | rfl
    · rw [clear i before]
      simpa only [Lock.call, old _ _ before] using sound.turns i before
    · simp [Lock.call]
  · intro i made
    rcases split i made with before | rfl
    · simpa only [Lock.call, old _ _ before] using sound.settled i before
    · simp [Lock.call]
  · intro i made none
    rcases split i made with before | rfl
    · rw [clear i before]
      exact sound.first i before (by simpa only [Lock.call, old _ _ before] using none)
    · intro j less
      simp only [Lock.call, old _ _ less, Function.update_self] at none ⊢
      exact sound.free walletId none j less
  · intro i made j
    rcases split i made with before | rfl
    · simp only [Lock.call, old _ _ before]
      intro prior
      obtain ⟨earlier, same, between⟩ := sound.chained i before j prior
      rw [old _ _ (earlier.trans before)]
      refine ⟨earlier, same, fun k less => ?_⟩
      rw [old _ _ (less.trans before)]
      exact between k less
    · simp only [Lock.call, Function.update_self]
      intro prior
      obtain ⟨⟨earlier, same, between⟩, -⟩ := sound.held walletId j prior
      rw [old _ _ earlier]
      refine ⟨earlier, same, fun k less => ?_⟩
      rw [old _ _ less]
      exact between k less
  · intro other i
    by_cases own : other = walletId
    · subst own
      simp only [Lock.call, Lock.Last, Function.update_self, Option.some.injEq]
      rintro rfl
      simp only [Function.update_self, ne_eq, reduceCtorEq, not_false_eq_true, and_true, true_and]
      exact ⟨Nat.lt_succ_self _, fun j made above => by omega⟩
    · simp only [Lock.call, Lock.Last, Function.update_of_ne own]
      intro tail
      obtain ⟨⟨made, wallet, last⟩, unreleased⟩ := sound.held other i tail
      rw [old _ _ made, old _ _ made]
      refine ⟨⟨made.trans (Nat.lt_succ_self _), wallet, fun j less above => ?_⟩, unreleased⟩
      rcases split j less with before | rfl
      · rw [old _ _ before]
        exact last j before above
      · rw [Function.update_self]
        exact fun same => own same.symm
  · intro other none i made
    by_cases own : other = walletId
    · simp [Lock.call, own] at none
    · simp only [Lock.call, Function.update_of_ne own] at none ⊢
      rcases split i made with before | rfl
      · simp only [old _ _ before]
        exact sound.free other none i before
      · simp only [Function.update_self]
        exact fun same => absurd same.symm own

/-- A change of the phase of a call that is not released to one that is not waiting. -/
theorem Sound.turned {lock after : Lock WalletId} (sound : Sound lock) {i : ℕ} {phase : Phase} (clear : lock.Clear i)
    (unreleased : lock.phase i ≠ .released)
    (same : after = { lock with phase := Function.update lock.phase i phase, tails := after.tails })
    (held : ∀ walletId j, after.tails walletId = some j → lock.tails walletId = some j ∧ (j = i → phase ≠ .released))
    (free : ∀ walletId, after.tails walletId = none → ∀ j < lock.made, lock.walletId j = walletId → after.phase j = .released) :
    Sound after := by
  have kept : ∀ j, j ≠ i → after.phase j = lock.phase j := fun j other => by rw [same]; exact Function.update_of_ne other _ _
  have released : ∀ j, lock.phase j = .released → after.phase j = .released := by
    intro j done
    rw [kept j (fun own => unreleased (own ▸ done)), done]
  have cleared : ∀ j, lock.Clear j → after.Clear j := by
    intro j before k less wallet
    rw [same] at wallet
    exact released k (before k less wallet)
  rw [same] at cleared ⊢
  constructor
  · intro j made phased
    by_cases own : j = i
    · exact cleared j (own ▸ clear)
    · exact cleared j (sound.turns j made (by simpa [own] using phased))
  · intro j made tail
    have done := released j (sound.settled j made tail)
    rw [same] at done
    exact done
  · exact fun j made none => cleared j (sound.first j made none)
  · exact sound.chained
  · intro walletId j tail
    obtain ⟨tail, own⟩ := held walletId j tail
    obtain ⟨last, held⟩ := sound.held walletId j tail
    refine ⟨last, ?_⟩
    by_cases mine : j = i
    · simpa [mine] using own mine
    · simpa [mine] using held
  · intro walletId none j made wallet
    have done := free walletId none j made wallet
    rw [same] at done
    exact done

theorem Sound.start {lock : Lock WalletId} (sound : Sound lock) {i : ℕ} (made : i < lock.made) (waiting : lock.phase i = .waiting)
    (ready : lock.ready i) : Sound (lock.start i) := by
  refine sound.turned (sound.clear made ready) (by rw [waiting]; decide) rfl (fun _ _ tail => ⟨tail, fun _ => by decide⟩) ?_
  intro walletId none j before wallet
  have done := sound.free walletId none j before wallet
  unfold Lock.start
  dsimp only
  rw [Function.update_of_ne fun own => by rw [own, waiting] at done; cases done]
  exact done

theorem Sound.finish [DecidableEq WalletId] {lock : Lock WalletId} (sound : Sound lock) {i : ℕ} (made : i < lock.made) (running : lock.phase i = .running) :
    Sound (lock.finish i) := by
  have clear := sound.turns i made (by rw [running]; decide)
  refine sound.turned clear (by rw [running]; decide) rfl ?_ ?_
  · intro walletId j tail
    unfold Lock.finish at tail
    dsimp only at tail
    split at tail
    · by_cases own : walletId = lock.walletId i
      · simp [own] at tail
      · rw [Function.update_of_ne own] at tail
        exact ⟨tail, fun same => absurd ((sound.held walletId j tail).1.2.1.symm.trans (by rw [same])) own⟩
    · rename_i newer
      refine ⟨tail, fun same => absurd ?_ newer⟩
      subst same
      rwa [(sound.held walletId j tail).1.2.1]
  · intro walletId none j before wallet
    unfold Lock.finish at none ⊢
    dsimp only at none ⊢
    by_cases own : j = i
    · rw [own, Function.update_self]
    · rw [Function.update_of_ne own]
      split at none
      · rename_i tail
        by_cases mine : walletId = lock.walletId i
        · obtain ⟨-, -, last⟩ := (sound.held _ i tail).1
          rcases lt_or_gt_of_ne own with earlier | later
          · exact clear j earlier (wallet.trans mine)
          · exact absurd (wallet.trans mine) (last j before later)
        · rw [Function.update_of_ne mine] at none
          exact sound.free walletId none j before wallet
      · exact sound.free walletId none j before wallet

theorem Sound.microtask {lock after : Lock WalletId} (sound : Sound lock) (task : Microtask lock after) : Sound after := by
  cases task with
  | @tail i made released ready =>
    refine ⟨sound.turns, fun j before settled => ?_, sound.first, sound.chained, sound.held, sound.free⟩
    by_cases own : j = i
    · exact own ▸ released
    · exact sound.settled j before (by simpa [Lock.settleTail, own] using settled)

theorem reachable_sound [DecidableEq WalletId] {lock : Lock WalletId} (reach : Reachable lock) : Sound lock := by
  induction reach with
  | start uncalled empty =>
    constructor <;> intros <;> simp_all
  | next _ step sound =>
    cases step with
    | call => exact sound.call _
    | start made waiting ready => exact sound.start made waiting ready
    | finish made running => exact sound.finish made running
    | microtask task => exact sound.microtask task

/-- What the promises leave as it is. -/
theorem microtasks_phase {lock after : Lock WalletId} (tasks : Relation.ReflTransGen Microtask lock after) :
    after.made = lock.made ∧ after.previous = lock.previous ∧ after.phase = lock.phase := by
  induction tasks with
  | refl => exact ⟨rfl, rfl, rfl⟩
  | tail _ task ih =>
    cases task
    exact ih

/-- By itself the chain comes to a call before which all of its wallet have released. -/
theorem Sound.turn {lock : Lock WalletId} (sound : Sound lock) (i : ℕ) (made : i < lock.made) (clear : lock.Clear i) :
    ∃ after, Relation.ReflTransGen Microtask lock after ∧ after.ready i := by
  induction i using Nat.strong_induction_on with
  | _ i ih =>
    cases before : lock.previous i with
    | none => exact ⟨lock, .refl, by simp [Lock.ready, before]⟩
    | some j =>
      obtain ⟨earlier, same, -⟩ := sound.chained i made j before
      have cleared : lock.Clear j := fun k less wallet => clear k (less.trans earlier) (wallet.trans same)
      obtain ⟨after, tasks, ready⟩ := ih j earlier (earlier.trans made) cleared
      obtain ⟨count, previous, phase⟩ := microtasks_phase tasks
      have released : after.phase j = .released := phase ▸ clear j earlier same
      refine ⟨after.settleTail j, tasks.tail (.tail (count ▸ earlier.trans made) released ready), ?_⟩
      simp [Lock.ready, Lock.settleTail, previous, before]

end LpTerminal.WalletLock
