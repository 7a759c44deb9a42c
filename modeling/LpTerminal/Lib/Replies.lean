import LpTerminal.Lib.Durable

/-!
Durable programs that await: each await takes one reply, and the process ends where no reply is left.
-/

namespace Durable

variable {ε σ ρ α β : Type}

structure Process (σ ρ : Type) where
  store : σ
  replies : List ρ

def await (stopped : ε) (answer : ρ → Except ε α) : Durable ε (Process σ ρ) α := do
  let process ← read
  match process.replies with
  | [] => fail stopped
  | next :: rest => do
    write fun process => { process with replies := rest }
    reply (answer next)

def Stored (P : σ → Prop) (process : Process σ ρ) : Prop := P process.store

variable {P : σ → Prop}

theorem stored_at {process : Process σ ρ} (holds : P process.store) : ∀ other, other = process → Stored P other := by
  rintro _ rfl
  exact holds

theorem stored_of {store : σ} (holds : P store) : ∀ other : Process σ ρ, Stored (· = store) other → Stored P other := by
  rintro ⟨_, _⟩ rfl
  exact holds

variable {answer : ρ → Except ε α} {stopped : ε}

theorem triple_await :
    Triple (Stored P) (await stopped answer : Durable ε (Process σ ρ) α) (fun _ => Stored P) (Stored P) := by
  refine triple_each fun process holds => triple_read_at ?_
  split
  · exact triple_fail fun _ same => same ▸ holds
  · exact triple_write_at (triple_reply (fun _ _ same _ => same ▸ holds) fun _ _ same _ => same ▸ holds)

variable {E : Process σ ρ → Prop}

theorem triple_await_bind {f : α → Durable ε (Process σ ρ) β}
    {Q : β → Process σ ρ → Prop} (stops : ∀ process, Stored P process → E process)
    (next : ∀ a, Triple (Stored P) (f a) Q E) : Triple (Stored P) (await stopped answer >>= f) Q E :=
  triple_bind (triple_weaken triple_await (fun _ => id) (fun _ _ => id) stops) next

theorem triple_await_at {process : Process σ ρ} {f : α → Durable ε (Process σ ρ) β}
    {Q : β → Process σ ρ → Prop} (stops : ∀ replies, E ⟨process.store, replies⟩)
    (next : ∀ reply rest a, process.replies = reply :: rest → answer reply = .ok a → Triple (· = ⟨process.store, rest⟩) (f a) Q E) :
    Triple (· = process) (await stopped answer >>= f) Q E := by
  obtain ⟨store, replies⟩ := process
  cases replies with
  | nil =>
    rintro _ rfl
    exact stops []
  | cons reply rest =>
    rintro _ rfl
    have ran : (await stopped answer).run ⟨store, reply :: rest⟩ = (answer reply, ⟨store, rest⟩) := rfl
    rw [bind_run, ran]
    cases told : answer reply with
    | ok a => exact next reply rest a rfl told _ rfl
    | error e => exact stops rest

def commit (update : σ → σ) : Durable ε (Process σ ρ) Unit := write fun process => { process with store := update process.store }

theorem triple_commit {update : σ → σ} {P Q : σ → Prop} (holds : ∀ store, P store → Q (update store)) :
    Triple (Stored P) (commit update : Durable ε (Process σ ρ) Unit) (fun _ => Stored Q) E :=
  triple_write fun process before => holds process.store before

def Avoids (e : ε) (m : Durable ε σ α) : Prop := ∀ s, (m.run s).1 ≠ .error e

variable {e : ε}

theorem avoids_pure (a : α) : Avoids e (pure a : Durable ε σ α) := fun _ same => by cases same

theorem avoids_fail {other : ε} (apart : other ≠ e) : Avoids e (fail other : Durable ε σ α) := fun _ same => apart (Except.error.inj same)

theorem avoids_read : Avoids e (read : Durable ε σ σ) := fun _ same => by cases same

theorem avoids_write {update : σ → σ} : Avoids e (write update : Durable ε σ Unit) := fun _ same => by cases same

theorem avoids_bind {m : Durable ε σ α} {f : α → Durable ε σ β} (first : Avoids e m) (next : ∀ a, Avoids e (f a)) :
    Avoids e (m >>= f) := by
  intro s
  have before := first s
  rw [bind_run]
  rcases ran : m.run s with ⟨outcome, s'⟩
  rw [ran] at before
  cases outcome with
  | ok a => exact next a s'
  | error other => exact fun same => before (congrArg Except.error (Except.error.inj same))

theorem avoids_await (apart : stopped ≠ e) (answers : ∀ next, answer next ≠ .error e) :
    Avoids e (await stopped answer : Durable ε (Process σ ρ) α) := by
  refine avoids_bind avoids_read fun process => ?_
  split
  · exact avoids_fail apart
  · exact avoids_bind avoids_write fun _ _ same => answers _ same

end Durable
