import LpTerminal.Lib.Trace
import Mathlib.Data.List.Lex
import Mathlib.Data.List.Nodup
import Mathlib.Data.List.Perm.Basic

/-!
The single-flight scheduler of the full repricing: calls made while a task runs wait for one follow-up run, which gets the
triggers of all of them. Every request is answered once, and without new ones the scheduler comes to rest.
-/

namespace LpTerminal.Scheduler

variable {ε T : Type*}

/-- A call of `request`, and the event at which it was made. -/
structure Request where
  trigger : String
  madeAt : ℕ

/-- A call of `task`, and the event at which it was made. The outcome is what its promise settled to. -/
structure TaskRun (ε T : Type*) where
  trigger : String
  startedAt : ℕ
  outcome : Option (Except ε T)

/-- A call of a waiter's `resolve` or `reject` in the pass of a run. -/
structure Settlement (ε T : Type*) where
  waiter : ℕ
  run : ℕ
  outcome : Except ε T

/-- The fields of the class. A waiter is the number of the request whose promise it settles; `nextTriggers` is a `Set`, in the
order of its insertions. -/
structure CoalescingScheduler where
  running : Bool
  currentWaiters : List ℕ
  nextWaiters : List ℕ
  nextTriggers : List String

def CoalescingScheduler.fresh : CoalescingScheduler :=
  { running := false, currentWaiters := [], nextWaiters := [], nextTriggers := [] }

/-- The scheduler between two turns of the event loop, with everything it has done. `active` holds the runs whose promise is
pending, each awaited by a call of `pump`. -/
structure World (ε T : Type*) where
  scheduler : CoalescingScheduler
  now : ℕ
  requests : List Request
  runs : List (TaskRun ε T)
  active : List ℕ
  settled : List (Settlement ε T)

def World.fresh : World ε T :=
  { scheduler := .fresh, now := 0, requests := [], runs := [], active := [], settled := [] }

/-- `sort` compares UTF-16 code units. -/
def codeUnits (text : String) : List ℕ :=
  text.toList.flatMap fun char =>
    if char.toNat < 0x10000 then [char.toNat]
    else [0xD800 + (char.toNat - 0x10000) / 0x400, 0xDC00 + (char.toNat - 0x10000) % 0x400]

def joined (triggers : List String) : String :=
  ",".intercalate (triggers.mergeSort fun a b => codeUnits a ≤ codeUnits b)

def addTrigger (triggers : List String) (trigger : String) : List String :=
  if trigger ∈ triggers then triggers else triggers ++ [trigger]

/-- `this.task(trigger)`, up to its `await`. -/
def callTask (trigger : String) (w : World ε T) : World ε T :=
  { w with
    runs := w.runs ++ [{ trigger, startedAt := w.now, outcome := none }]
    active := w.active ++ [w.runs.length] }

def World.withScheduler (w : World ε T) (scheduler : CoalescingScheduler) : World ε T := { w with scheduler }

def request (trigger : String) (w : World ε T) : World ε T :=
  let waiter := w.requests.length
  let w : World ε T := { w with requests := w.requests ++ [{ trigger, madeAt := w.now }] }
  let s : CoalescingScheduler := w.scheduler
  if s.running then
    w.withScheduler { s with
      nextWaiters := s.nextWaiters ++ [waiter]
      nextTriggers := addTrigger s.nextTriggers trigger }
  else
    callTask trigger (w.withScheduler { s with running := true, currentWaiters := s.currentWaiters ++ [waiter] })

/-- What the loop of `pump` does once its task has settled: the waiters of the pass, then the end of the loop or the next pass. -/
def pumpAfter (run : ℕ) (outcome : Except ε T) (w : World ε T) : World ε T :=
  let s : CoalescingScheduler := w.scheduler
  let w : World ε T := { w with settled := w.settled ++ s.currentWaiters.map (Settlement.mk · run outcome) }
  if s.nextWaiters.isEmpty then w.withScheduler { s with currentWaiters := [], running := false }
  else callTask (joined s.nextTriggers)
    (w.withScheduler { s with currentWaiters := s.nextWaiters, nextWaiters := [], nextTriggers := [] })

def taskEnded (run : ℕ) (outcome : Except ε T) (w : World ε T) : World ε T :=
  { w with
    runs := w.runs.modify run fun task => { task with outcome := some outcome }
    active := w.active.erase run }

/-- A task that throws before its first `await` settles right after the call. -/
inductive Event (ε T : Type*) where
  | request (trigger : String)
  | settles (run : ℕ) (outcome : Except ε T)

def handle (w : World ε T) : Event ε T → World ε T
  | .request trigger => request trigger w
  | .settles run outcome => if run ∈ w.active then pumpAfter run outcome (taskEnded run outcome w) else w

def step (w : World ε T) (event : Event ε T) : World ε T :=
  { handle w event with now := w.now + 1 }

/-- The world after the first `n` events. -/
def worldAt (schedule : ℕ → Event ε T) : ℕ → World ε T
  | 0 => .fresh
  | n + 1 => step (worldAt schedule n) (schedule n)

def World.Idle (w : World ε T) : Prop := w.scheduler = .fresh ∧ w.active = []

def Answers (w : World ε T) (waiter run : ℕ) : Prop :=
  ∃ request task triggers, w.requests[waiter]? = some request ∧ w.runs[run]? = some task ∧ request.madeAt ≤ task.startedAt ∧
    task.trigger = ",".intercalate triggers ∧ request.trigger ∈ triggers

def World.settlements (w : World ε T) (waiter : ℕ) : ℕ := (w.settled.map Settlement.waiter).count waiter

def World.Waits (w : World ε T) (waiter : ℕ) : Prop :=
  waiter ∈ w.scheduler.currentWaiters ∨ waiter ∈ w.scheduler.nextWaiters

structure Law (w : World ε T) : Prop where
  pump : w.Idle ∨ w.scheduler.running = true ∧ ∃ last, w.active = [last] ∧ (∃ task, w.runs[last]? = some task ∧ task.outcome = none) ∧
    ∀ waiter ∈ w.scheduler.currentWaiters, Answers w waiter last
  waiters : (w.settled.map Settlement.waiter ++ (w.scheduler.currentWaiters ++ w.scheduler.nextWaiters)).Perm
    (List.range w.requests.length)
  next : ∀ waiter ∈ w.scheduler.nextWaiters, ∃ request, w.requests[waiter]? = some request ∧
    request.trigger ∈ w.scheduler.nextTriggers
  named : w.scheduler.nextWaiters = [] → w.scheduler.nextTriggers = []
  past : ∀ request ∈ w.requests, request.madeAt < w.now
  answered : ∀ settlement ∈ w.settled, Answers w settlement.waiter settlement.run ∧
    ∃ task, w.runs[settlement.run]? = some task ∧ task.outcome = some settlement.outcome

structure Extends (w later : World ε T) : Prop where
  requests : ∀ (waiter : ℕ) (request : Request), w.requests[waiter]? = some request → later.requests[waiter]? = some request
  runs : ∀ (run : ℕ) (task : TaskRun ε T), w.runs[run]? = some task → ∃ after, later.runs[run]? = some after ∧ after.trigger = task.trigger ∧
    after.startedAt = task.startedAt ∧ ∀ outcome, task.outcome = some outcome → after.outcome = some outcome

theorem Answers.later {w later : World ε T} {waiter run : ℕ} (answers : Answers w waiter run) (grown : Extends w later) :
    Answers later waiter run := by
  obtain ⟨request, task, triggers, made, started, order, passed, inside⟩ := answers
  obtain ⟨after, found, sameTrigger, sameStart, -⟩ := grown.runs run task started
  exact ⟨request, after, triggers, grown.requests waiter request made, found, by rw [sameStart]; exact order,
    sameTrigger.trans passed, inside⟩

theorem Law.answered_later {w later : World ε T} (law : Law w) (grown : Extends w later) :
    ∀ settlement ∈ w.settled, Answers later settlement.waiter settlement.run ∧
      ∃ task, later.runs[settlement.run]? = some task ∧ task.outcome = some settlement.outcome := by
  intro settlement inside
  obtain ⟨answers, task, found, ended⟩ := law.answered settlement inside
  obtain ⟨after, foundLater, -, -, kept⟩ := grown.runs _ _ found
  exact ⟨answers.later grown, after, foundLater, kept _ ended⟩

theorem getElem?_snoc {α : Type*} {items : List α} {index : ℕ} {item : α} (found : items[index]? = some item) (last : α) :
    (items ++ [last])[index]? = some item := by
  have below : index < items.length := (List.getElem?_eq_some_iff.mp found).1
  rw [List.getElem?_append_left below, found]

theorem mem_addTrigger {triggers : List String} {trigger other : String} :
    other ∈ addTrigger triggers trigger ↔ other ∈ triggers ∨ other = trigger := by
  unfold addTrigger
  split
  · rename_i present
    exact ⟨Or.inl, fun inside => inside.elim id fun same => same ▸ present⟩
  · simp

theorem mem_joined (triggers : List String) :
    ∃ names : List String, joined triggers = ",".intercalate names ∧ ∀ trigger ∈ triggers, trigger ∈ names :=
  ⟨_, rfl, fun _ inside => List.mem_mergeSort.mpr inside⟩

theorem fresh_law : Law (World.fresh : World ε T) where
  pump := .inl ⟨rfl, rfl⟩
  waiters := by simp [World.fresh, CoalescingScheduler.fresh]
  next := by simp [World.fresh, CoalescingScheduler.fresh]
  named := fun _ => rfl
  past := by simp [World.fresh]
  answered := by simp [World.fresh]

section Request

variable {w : World ε T} {trigger : String}

theorem request_running (running : w.scheduler.running = true) (law : Law w) : Law (step w (.request trigger)) := by
  obtain idle | ⟨-, last, active, task, answers⟩ := law.pump
  · rw [idle.1] at running
    cases running
  have state : step w (.request trigger) =
      { w with
        requests := w.requests ++ [{ trigger, madeAt := w.now }]
        now := w.now + 1
        scheduler := { w.scheduler with
          nextWaiters := w.scheduler.nextWaiters ++ [w.requests.length]
          nextTriggers := addTrigger w.scheduler.nextTriggers trigger } } := by
    simp [step, handle, request, running, World.withScheduler]
  have grown : Extends w (step w (.request trigger)) := by
    rw [state]
    constructor
    · exact fun waiter request found => getElem?_snoc found _
    · exact fun run task found => ⟨task, found, rfl, rfl, fun _ => id⟩
  rw [state] at grown ⊢
  constructor
  · exact .inr ⟨running, last, active, task, fun waiter inside => (answers waiter inside).later grown⟩
  · have before := law.waiters.append_right [w.requests.length]
    simpa [List.range_succ] using before
  · intro waiter inside
    rcases List.mem_append.mp inside with old | new
    · obtain ⟨request, found, named⟩ := law.next waiter old
      exact ⟨request, grown.requests _ _ found, mem_addTrigger.mpr (.inl named)⟩
    · rw [List.mem_singleton] at new
      subst new
      exact ⟨_, List.getElem?_concat_length, mem_addTrigger.mpr (.inr rfl)⟩
  · simp
  · intro request inside
    rcases List.mem_append.mp inside with old | new
    · exact Nat.lt_succ_of_lt (law.past request old)
    · rw [List.mem_singleton.mp new]
      exact Nat.lt_succ_self w.now
  · exact law.answered_later grown

theorem request_idle (idle : w.Idle) (law : Law w) : Law (step w (.request trigger)) := by
  have state : step w (.request trigger) =
      { w with
        requests := w.requests ++ [{ trigger, madeAt := w.now }]
        now := w.now + 1
        runs := w.runs ++ [{ trigger, startedAt := w.now, outcome := none }]
        active := [w.runs.length]
        scheduler := { running := true, currentWaiters := [w.requests.length], nextWaiters := [], nextTriggers := [] } } := by
    simp [step, handle, request, callTask, idle.1, idle.2, World.withScheduler, CoalescingScheduler.fresh]
  have grown : Extends w (step w (.request trigger)) := by
    rw [state]
    constructor
    · exact fun waiter request found => getElem?_snoc found _
    · exact fun run task found => ⟨task, getElem?_snoc found _, rfl, rfl, fun _ => id⟩
  rw [state] at grown ⊢
  constructor
  · refine .inr ⟨rfl, w.runs.length, rfl, ⟨_, List.getElem?_concat_length, rfl⟩, ?_⟩
    intro waiter inside
    rw [List.mem_singleton] at inside
    subst inside
    exact ⟨_, _, [trigger], List.getElem?_concat_length, List.getElem?_concat_length, Nat.le_refl _, rfl,
      List.mem_singleton_self trigger⟩
  · have before := law.waiters.append_right [w.requests.length]
    simpa [List.range_succ, idle.1, CoalescingScheduler.fresh] using before
  · simp
  · exact fun _ => rfl
  · intro request inside
    rcases List.mem_append.mp inside with old | new
    · exact Nat.lt_succ_of_lt (law.past request old)
    · rw [List.mem_singleton.mp new]
      exact Nat.lt_succ_self w.now
  · exact law.answered_later grown

end Request

section Settles

variable {w : World ε T} {run : ℕ} {outcome : Except ε T}

theorem getElem?_ended {runs : List (TaskRun ε T)} {task : TaskRun ε T} (found : runs[run]? = some task) :
    (runs.modify run fun task => { task with outcome := some outcome })[run]? = some { task with outcome := some outcome } := by
  simp [found]

theorem ended_runs (outcome : Except ε T) (pending : ∃ task, w.runs[run]? = some task ∧ task.outcome = none) (other : ℕ) (task : TaskRun ε T)
    (found : w.runs[other]? = some task) :
    ∃ after, (w.runs.modify run fun task => { task with outcome := some outcome })[other]? = some after ∧
      after.trigger = task.trigger ∧ after.startedAt = task.startedAt ∧
      ∀ kept, task.outcome = some kept → after.outcome = some kept := by
  by_cases same : run = other
  · subst same
    obtain ⟨first, firstFound, unsettled⟩ := pending
    rw [firstFound, Option.some.injEq] at found
    subst found
    refine ⟨_, getElem?_ended firstFound, rfl, rfl, fun kept outcome => ?_⟩
    rw [unsettled] at outcome
    cases outcome
  · exact ⟨task, by simp [same, found], rfl, rfl, fun _ => id⟩

theorem settles_last (law : Law w) (inside : run ∈ w.active) :
    w.scheduler.running = true ∧ w.active = [run] ∧ (∃ task, w.runs[run]? = some task ∧ task.outcome = none) ∧
      ∀ waiter ∈ w.scheduler.currentWaiters, Answers w waiter run := by
  obtain idle | ⟨running, last, active, task, answers⟩ := law.pump
  · rw [idle.2] at inside
    cases inside
  · rw [active, List.mem_singleton] at inside
    subst inside
    exact ⟨running, active, task, answers⟩

theorem settles_rest (law : Law w) (inside : run ∈ w.active) (nobody : w.scheduler.nextWaiters = []) :
    step w (.settles run outcome) =
      { w with
        now := w.now + 1
        runs := w.runs.modify run fun task => { task with outcome := some outcome }
        active := []
        settled := w.settled ++ w.scheduler.currentWaiters.map (Settlement.mk · run outcome)
        scheduler := .fresh } := by
  have active := (settles_last law inside).2.1
  have names := law.named nobody
  simp [step, handle, pumpAfter, taskEnded, nobody, names, active, World.withScheduler, CoalescingScheduler.fresh]

theorem settles_pass (outcome : Except ε T) (law : Law w) (inside : run ∈ w.active) (somebody : w.scheduler.nextWaiters ≠ []) :
    step w (.settles run outcome) =
      { w with
        now := w.now + 1
        runs := (w.runs.modify run fun task => { task with outcome := some outcome }) ++
          [{ trigger := joined w.scheduler.nextTriggers, startedAt := w.now, outcome := none }]
        active := [w.runs.length]
        settled := w.settled ++ w.scheduler.currentWaiters.map (Settlement.mk · run outcome)
        scheduler := { w.scheduler with currentWaiters := w.scheduler.nextWaiters, nextWaiters := [], nextTriggers := [] } } := by
  have active := (settles_last law inside).2.1
  simp [step, handle, pumpAfter, taskEnded, callTask, somebody, active, World.withScheduler]

theorem pass_answered {later : World ε T} (law : Law w) (inside : run ∈ w.active) (grown : Extends w later)
    (ended : ∃ task, later.runs[run]? = some task ∧ task.outcome = some outcome) :
    ∀ settlement ∈ w.settled ++ w.scheduler.currentWaiters.map (Settlement.mk · run outcome),
      Answers later settlement.waiter settlement.run ∧
        ∃ task, later.runs[settlement.run]? = some task ∧ task.outcome = some settlement.outcome := by
  intro settlement member
  rcases List.mem_append.mp member with old | new
  · exact law.answered_later grown settlement old
  · obtain ⟨waiter, waits, rfl⟩ := List.mem_map.mp new
    exact ⟨((settles_last law inside).2.2.2 waiter waits).later grown, ended⟩

theorem settles_rest_law (law : Law w) (inside : run ∈ w.active) (nobody : w.scheduler.nextWaiters = []) :
    Law (step w (.settles run outcome)) := by
  have pending := (settles_last law inside).2.2.1
  rw [settles_rest law inside nobody]
  constructor
  · exact .inl ⟨rfl, rfl⟩
  · have before := law.waiters
    simpa [nobody, CoalescingScheduler.fresh, Function.comp_def] using before
  · simp [CoalescingScheduler.fresh]
  · exact fun _ => rfl
  · exact fun request made => Nat.lt_succ_of_lt (law.past request made)
  · have grown := ended_runs outcome pending
    obtain ⟨task, found, -⟩ := pending
    exact pass_answered law inside ⟨fun _ _ => id, grown⟩ ⟨_, getElem?_ended found, rfl⟩

theorem settles_pass_law (law : Law w) (inside : run ∈ w.active) (somebody : w.scheduler.nextWaiters ≠ []) :
    Law (step w (.settles run outcome)) := by
  obtain ⟨running, -, pending, -⟩ := settles_last law inside
  have state := settles_pass outcome law inside somebody
  have grown : Extends w (step w (.settles run outcome)) := by
    rw [state]
    constructor
    · exact fun _ _ => id
    · intro other task found
      obtain ⟨after, foundAfter, rest⟩ := ended_runs outcome pending other task found
      exact ⟨after, getElem?_snoc foundAfter _, rest⟩
  have started : (step w (.settles run outcome)).runs[w.runs.length]? =
      some { trigger := joined w.scheduler.nextTriggers, startedAt := w.now, outcome := none } := by
    have length : (w.runs.modify run fun task => { task with outcome := some outcome }).length = w.runs.length :=
      List.length_modify ..
    rw [state, ← length]
    exact List.getElem?_concat_length
  have ended : ∃ task, (step w (.settles run outcome)).runs[run]? = some task ∧ task.outcome = some outcome := by
    obtain ⟨task, found, -⟩ := pending
    rw [state]
    exact ⟨_, getElem?_snoc (getElem?_ended found) _, rfl⟩
  have given : ∀ waiter ∈ w.scheduler.nextWaiters, Answers (step w (.settles run outcome)) waiter w.runs.length := by
    intro waiter waits
    obtain ⟨request, found, named⟩ := law.next waiter waits
    obtain ⟨names, joinedNames, all⟩ := mem_joined w.scheduler.nextTriggers
    have early : request.madeAt ≤ w.now := Nat.le_of_lt (law.past request (List.mem_of_getElem? found))
    exact ⟨request, _, names, grown.requests waiter request found, started, early, joinedNames, all _ named⟩
  have answered := pass_answered law inside grown ended
  rw [state] at started given answered ⊢
  constructor
  · exact .inr ⟨running, w.runs.length, rfl, ⟨_, started, rfl⟩, given⟩
  · have before := law.waiters
    simpa [Function.comp_def] using before
  · simp
  · exact fun _ => rfl
  · exact fun request made => Nat.lt_succ_of_lt (law.past request made)
  · exact answered

end Settles

theorem step_law {w : World ε T} (law : Law w) (event : Event ε T) : Law (step w event) := by
  cases event with
  | request trigger =>
    rcases law.pump with idle | running
    · exact request_idle idle law
    · exact request_running running.1 law
  | settles run outcome =>
    by_cases inside : run ∈ w.active
    · by_cases nobody : w.scheduler.nextWaiters = []
      · exact settles_rest_law law inside nobody
      · exact settles_pass_law law inside nobody
    · have state : step w (.settles run outcome) = { w with now := w.now + 1 } := by simp [step, handle, inside]
      rw [state]
      exact ⟨law.pump, law.waiters, law.next, law.named, fun request made => Nat.lt_succ_of_lt (law.past request made),
        law.answered⟩

theorem worldAt_law (schedule : ℕ → Event ε T) (n : ℕ) : Law (worldAt schedule n) := by
  induction n with
  | zero => exact fresh_law
  | succ n ih => exact step_law ih (schedule n)

/-- What holds between two events: one task at most, no promise settled twice, none lost, and each settled by a run that
answers it, with the outcome of that run. -/
structure Served (w : World ε T) : Prop where
  single : w.active.length ≤ 1
  once : ∀ waiter < w.requests.length, w.settlements waiter = 1 ∧ ¬ w.Waits waiter ∨ w.settlements waiter = 0 ∧ w.Waits waiter
  answered : ∀ settlement ∈ w.settled, Answers w settlement.waiter settlement.run ∧
    ∃ task, w.runs[settlement.run]? = some task ∧ task.outcome = some settlement.outcome

theorem Law.once {w : World ε T} (law : Law w) (waiter : ℕ) (made : waiter < w.requests.length) :
    w.settlements waiter = 1 ∧ ¬ w.Waits waiter ∨ w.settlements waiter = 0 ∧ w.Waits waiter := by
  have total := law.waiters.count_eq waiter
  rw [List.count_append, List.count_eq_one_of_mem List.nodup_range (List.mem_range.mpr made)] at total
  have waits : w.Waits waiter ↔ 0 < (w.scheduler.currentWaiters ++ w.scheduler.nextWaiters).count waiter := by
    rw [List.count_pos_iff, List.mem_append]
    rfl
  unfold World.settlements
  rw [waits]
  omega

theorem Law.served {w : World ε T} (law : Law w) : Served w where
  single := by
    obtain idle | ⟨-, last, active, -⟩ := law.pump
    · simp [idle.2]
    · simp [active]
  once := law.once
  answered := law.answered

theorem Law.settled_of_idle {w : World ε T} (law : Law w) (idle : w.Idle) (waiter : ℕ) (made : waiter < w.requests.length) :
    w.settlements waiter = 1 := by
  rcases law.once waiter made with ⟨once, -⟩ | ⟨-, waits⟩
  · exact once
  · simp [World.Waits, idle.1, CoalescingScheduler.fresh] at waits

section Rest

variable {schedule : ℕ → Event ε T} {last : ℕ}

/-- No request from the event `last` on. -/
def NoRequestFrom (schedule : ℕ → Event ε T) (last : ℕ) : Prop := ∀ n ≥ last, ∀ trigger, schedule n ≠ .request trigger

def TasksEnd (schedule : ℕ → Event ε T) : Prop :=
  ∀ n, ∀ run ∈ (worldAt schedule n).active, ∃ m ≥ n, ∃ outcome, schedule m = .settles run outcome

def World.runsLeft (w : World ε T) : ℕ :=
  (if w.scheduler.running then 1 else 0) + (if w.scheduler.nextWaiters = [] then 0 else 1)

theorem settles_fewer {w : World ε T} {run : ℕ} {outcome : Except ε T} (law : Law w) (inside : run ∈ w.active) :
    (step w (.settles run outcome)).runsLeft < w.runsLeft := by
  have running := (settles_last law inside).1
  by_cases nobody : w.scheduler.nextWaiters = []
  · rw [settles_rest law inside nobody]
    simp [World.runsLeft, running, nobody, CoalescingScheduler.fresh]
  · rw [settles_pass outcome law inside nobody]
    simp [World.runsLeft, running, nobody]

def Alike (w later : World ε T) : Prop := w.scheduler = later.scheduler ∧ w.active = later.active

theorem alike_refl (w : World ε T) : Alike w w := ⟨rfl, rfl⟩

theorem alike_trans (a b c : World ε T) (first : Alike a b) (second : Alike b c) : Alike a c :=
  ⟨first.1.trans second.1, first.2.trans second.2⟩

theorem alike_left (a b : World ε T) (same : Alike a b) : a.runsLeft = b.runsLeft := by
  simp only [World.runsLeft, same.1]

theorem step_fewer {w : World ε T} {event : Event ε T} (law : Law w) (noRequest : ∀ trigger, event ≠ .request trigger) :
    (step w event).runsLeft < w.runsLeft ∨ Alike w (step w event) := by
  cases event with
  | request trigger => exact (noRequest trigger rfl).elim
  | settles run outcome =>
    by_cases inside : run ∈ w.active
    · exact .inl (settles_fewer law inside)
    · simp [step, handle, inside, Alike]

theorem steps_fewer (noRequest : NoRequestFrom schedule last) :
    ∀ n ≥ last, (worldAt schedule (n + 1)).runsLeft < (worldAt schedule n).runsLeft ∨
      Alike (worldAt schedule n) (worldAt schedule (n + 1)) :=
  fun n after => step_fewer (worldAt_law schedule n) (noRequest n after)

theorem reaches_idle (noRequest : NoRequestFrom schedule last) (tasksEnd : TasksEnd schedule) :
    ∃ m ≥ last, (worldAt schedule m).Idle := by
  refine Progress.reaches alike_refl alike_trans alike_left (steps_fewer noRequest) ?_ last (Nat.le_refl last)
  intro n _ busy
  obtain idle | ⟨-, run, active, -⟩ := (worldAt_law schedule n).pump
  · exact (busy idle).elim
  · obtain ⟨m, later, outcome, settles⟩ := tasksEnd n run (by simp [active])
    refine ⟨m, later, fun same => ?_⟩
    have inside : run ∈ (worldAt schedule m).active := by simp [← same.2, active]
    show (step (worldAt schedule m) (schedule m)).runsLeft < _
    rw [settles]
    exact settles_fewer (worldAt_law schedule m) inside

theorem idle_stays {n : ℕ} (after : last ≤ n) (noRequest : NoRequestFrom schedule last) (idle : (worldAt schedule n).Idle) :
    ∀ m ≥ n, (worldAt schedule m).Idle := by
  intro m later
  obtain ⟨more, rfl⟩ := Nat.exists_eq_add_of_le later
  rcases Progress.stretch alike_refl alike_trans alike_left (steps_fewer noRequest) after more with fewer | ⟨scheduler, active⟩
  · simp [World.runsLeft, idle.1, CoalescingScheduler.fresh] at fewer
  · exact ⟨scheduler.symm.trans idle.1, active.symm.trans idle.2⟩

end Rest

end LpTerminal.Scheduler
