import Mathlib.Init

/-!
Programs over durable state. A program that throws keeps the writes it made before, so a throw also
stands for a crash at that point.
-/

structure Durable (ε σ α : Type) where
  run : σ → Except ε α × σ

namespace Durable

variable {ε σ α β : Type}

instance : Monad (Durable ε σ) where
  pure a := ⟨fun s => (.ok a, s)⟩
  bind m f := ⟨fun s =>
    match m.run s with
    | (.ok a, s') => (f a).run s'
    | (.error e, s') => (.error e, s')⟩

instance : LawfulMonad (Durable ε σ) := LawfulMonad.mk' _
  (fun m => by
    show Durable.mk _ = m
    congr 1
    funext s
    rcases m.run s with ⟨outcome, s'⟩
    cases outcome <;> rfl)
  (fun _ _ => rfl)
  (fun m f g => by
    show Durable.mk _ = Durable.mk _
    congr 1
    funext s
    show (match (match m.run s with | (.ok a, s') => (f a).run s' | (.error e, s') => (.error e, s')) with
      | (.ok b, s') => (g b).run s'
      | (.error e, s') => (.error e, s')) = _
    rcases m.run s with ⟨outcome, s'⟩
    cases outcome <;> rfl)

def fail (e : ε) : Durable ε σ α := ⟨fun s => (.error e, s)⟩

def read : Durable ε σ σ := ⟨fun s => (.ok s, s)⟩

def write (update : σ → σ) : Durable ε σ Unit := ⟨fun s => (.ok (), update s)⟩

def tryWrite (update : σ → Except ε σ) : Durable ε σ Unit := ⟨fun s =>
  match update s with
  | .ok s' => (.ok (), s')
  | .error e => (.error e, s)⟩

def reply (answer : Except ε α) : Durable ε σ α := ⟨fun s => (answer, s)⟩

def tolerate (m : Durable ε σ α) : Durable ε σ Unit := ⟨fun s => (.ok (), (m.run s).2)⟩

def atomically (m : Durable ε σ α) : Durable ε σ α := ⟨fun s =>
  match m.run s with
  | (.ok a, s') => (.ok a, s')
  | (.error e, _) => (.error e, s)⟩

def rescue (answer : ε → Option α) (m : Durable ε σ α) : Durable ε σ α := ⟨fun s =>
  match m.run s with
  | (.ok a, s') => (.ok a, s')
  | (.error e, s') =>
    match answer e with
    | some a => (.ok a, s')
    | none => (.error e, s')⟩

def within {τ : Type} (part : τ → σ) (replace : τ → σ → τ) (m : Durable ε σ α) : Durable ε τ α := ⟨fun t =>
  ((m.run (part t)).1, replace t (m.run (part t)).2)⟩

def left (m : Durable ε σ α) (s : σ) : σ := (m.run s).2

/-- From `P` the program returns in `Q` or throws in `E`. -/
def Triple (P : σ → Prop) (m : Durable ε σ α) (Q : α → σ → Prop) (E : σ → Prop) : Prop :=
  ∀ s, P s →
    match m.run s with
    | (.ok a, s') => Q a s'
    | (.error _, s') => E s'

variable {P P' : σ → Prop} {Q Q' : α → σ → Prop} {R : β → σ → Prop} {E E' : σ → Prop}

theorem triple_pure {a : α} (holds : ∀ s, P s → Q a s) : Triple P (pure a : Durable ε σ α) Q E :=
  holds

variable {m : Durable ε σ α} {f : α → Durable ε σ β} {s : σ}

theorem bind_run :
    (m >>= f).run s = match m.run s with
      | (.ok a, s') => (f a).run s'
      | (.error e, s') => (.error e, s') := rfl

theorem triple_bind (first : Triple P m Q E)
    (next : ∀ a, Triple (Q a) (f a) R E) : Triple P (m >>= f) R E := by
  intro s before
  have middle := first s before
  rw [bind_run]
  rcases ran : m.run s with ⟨outcome, s'⟩
  rw [ran] at middle
  cases outcome with
  | ok a => exact next a s' middle
  | error e => exact middle

theorem triple_fail {e : ε} (stops : ∀ s, P s → E s) : Triple P (fail e : Durable ε σ α) Q E :=
  stops

theorem triple_read {Q : σ → σ → Prop} (holds : ∀ s, P s → Q s s) : Triple P (read : Durable ε σ σ) Q E :=
  holds

theorem triple_write {update : σ → σ} {Q : Unit → σ → Prop} (holds : ∀ s, P s → Q () (update s)) :
    Triple P (write update : Durable ε σ Unit) Q E :=
  holds

variable {update : σ → Except ε σ}

theorem triple_tryWrite {Q : Unit → σ → Prop}
    (holds : ∀ s s', P s → update s = .ok s' → Q () s') (refused : ∀ s e, P s → update s = .error e → E s) :
    Triple P (tryWrite update) Q E := by
  intro s before
  unfold tryWrite
  cases told : update s with
  | ok s' => simpa only [told] using holds s s' before told
  | error e => simpa only [told] using refused s e before told

theorem triple_reply {answer : Except ε α} (holds : ∀ s a, P s → answer = .ok a → Q a s)
    (stops : ∀ s e, P s → answer = .error e → E s) : Triple P (reply answer : Durable ε σ α) Q E := by
  intro s before
  unfold reply
  cases told : answer with
  | ok a => exact holds s a before told
  | error e => exact stops s e before told

theorem triple_weaken (triple : Triple P m Q E) (pre : ∀ s, P' s → P s)
    (post : ∀ a s, Q a s → Q' a s) (stop : ∀ s, E s → E' s) : Triple P' m Q' E' := by
  intro s before
  have after := triple s (pre s before)
  rcases ran : m.run s with ⟨outcome, s'⟩
  rw [ran] at after
  cases outcome with
  | ok a => exact post a s' after
  | error e => exact stop s' after

theorem run_bind_ok {s middle : σ} {a : α} (first : m.run s = (.ok a, middle)) :
    (m >>= f).run s = (f a).run middle := by
  rw [bind_run, first]

theorem run_read (s : σ) : (read : Durable ε σ σ).run s = (.ok s, s) := rfl

theorem run_write_bind {update : σ → σ} {f : Unit → Durable ε σ β} (s : σ) :
    (write update >>= f).run s = (f ()).run (update s) := rfl

theorem run_reply_ok {answer : Except ε α} {a : α} (told : answer = .ok a) (s : σ) :
    (reply answer : Durable ε σ α).run s = (.ok a, s) := by
  rw [told]
  rfl

theorem bind_returns {s final : σ} {b : β}
    (ran : (m >>= f).run s = (.ok b, final)) : ∃ a middle, m.run s = (.ok a, middle) ∧ (f a).run middle = (.ok b, final) := by
  rw [bind_run] at ran
  rcases first : m.run s with ⟨outcome, middle⟩
  rw [first] at ran
  cases outcome with
  | ok a => exact ⟨a, middle, rfl, ran⟩
  | error e => cases ran

theorem triple_assume {fact : Prop} (given : fact → Triple P m Q E) :
    Triple (fun s => fact ∧ P s) m Q E :=
  fun s before => given before.1 s before.2

theorem triple_each (each : ∀ s, P s → Triple (· = s) m Q E) : Triple P m Q E :=
  fun s before => each s before s rfl

theorem triple_both (first : Triple P m Q E) (second : Triple P' m Q' E') :
    Triple (fun s => P s ∧ P' s) m (fun a s => Q a s ∧ Q' a s) (fun s => E s ∧ E' s) := by
  rintro s ⟨before, before'⟩
  have after := first s before
  have after' := second s before'
  rcases ran : m.run s with ⟨outcome, s'⟩
  rw [ran] at after after'
  cases outcome with
  | ok a => exact ⟨after, after'⟩
  | error e => exact ⟨after, after'⟩

theorem triple_read_at {f : σ → Durable ε σ α} (next : Triple (· = s) (f s) Q E) :
    Triple (· = s) (read >>= f) Q E := by
  rintro _ rfl
  exact next _ rfl

theorem triple_reply_at {answer : Except ε β} {f : β → Durable ε σ α}
    (next : ∀ b, answer = .ok b → Triple (· = s) (f b) Q E) (stops : ∀ e, answer = .error e → E s) :
    Triple (· = s) (reply answer >>= f) Q E := by
  rintro _ rfl
  cases told : answer with
  | ok b => exact next b told _ rfl
  | error e => exact stops e told

theorem triple_write_at {update : σ → σ} {f : Unit → Durable ε σ α} (next : Triple (· = update s) (f ()) Q E) :
    Triple (· = s) (write update >>= f) Q E := by
  rintro _ rfl
  exact next _ rfl

theorem triple_tryWrite_at {f : Unit → Durable ε σ α}
    (next : ∀ s', update s = .ok s' → Triple (· = s') (f ()) Q E) (stops : ∀ e, update s = .error e → E s) :
    Triple (· = s) (tryWrite update >>= f) Q E :=
  triple_bind (Q := fun (_ : Unit) s' => update s = .ok s')
    (triple_tryWrite (fun _ _ same told => same ▸ told) fun before e same told => by
      subst same
      exact stops e told)
    fun _ => triple_each fun s' told => next s' told

theorem triple_bind_ran {R : β → σ → Prop} (first : Triple (· = s) m Q E)
    (next : ∀ a s', m.run s = (.ok a, s') → Q a s' → Triple (· = s') (f a) R E) : Triple (· = s) (m >>= f) R E := by
  rintro _ rfl
  have middle := first _ rfl
  rw [bind_run]
  rcases ran : m.run _ with ⟨outcome, s'⟩
  rw [ran] at middle
  cases outcome with
  | ok a => exact next a s' ran middle s' rfl
  | error e => exact middle

def Keeps (I : σ → Prop) (m : Durable ε σ α) : Prop :=
  Triple I m (fun _ => I) I

variable {I : σ → Prop}

theorem keeps_true (m : Durable ε σ α) : Keeps (fun _ => True) m := by
  intro s _
  rcases m.run s with ⟨outcome, s'⟩
  cases outcome <;> trivial

theorem keeps_pure (a : α) : Keeps I (pure a : Durable ε σ α) := fun _ before => before

theorem keeps_fail (e : ε) : Keeps I (fail e : Durable ε σ α) := fun _ before => before

theorem keeps_read : Keeps I (read : Durable ε σ σ) := fun _ before => before

theorem keeps_reply (answer : Except ε α) : Keeps I (reply answer : Durable ε σ α) :=
  triple_reply (fun _ _ before _ => before) (fun _ _ before _ => before)

theorem keeps_write {update : σ → σ} (kept : ∀ s, I s → I (update s)) : Keeps I (write update : Durable ε σ Unit) := kept

theorem keeps_tryWrite (kept : ∀ s s', I s → update s = .ok s' → I s') :
    Keeps I (tryWrite update) :=
  triple_tryWrite kept (fun _ _ before _ => before)

theorem keeps_bind (first : Keeps I m) (next : ∀ a, Keeps I (f a)) :
    Keeps I (m >>= f) :=
  triple_bind first next

theorem keeps_tolerate (kept : Keeps I m) : Keeps I (tolerate m) := by
  intro s before
  have after := kept s before
  change I (m.run s).2
  rcases ran : m.run s with ⟨outcome, s'⟩
  rw [ran] at after
  cases outcome with
  | ok a => exact after
  | error e => exact after

theorem triple_atomically (triple : ∀ s, P s → Triple (· = s) m Q fun _ => E s) :
    Triple P (atomically m) Q E := by
  intro s before
  have after := triple s before s rfl
  unfold atomically
  rcases ran : m.run s with ⟨outcome, s'⟩
  rw [ran] at after
  cases outcome with
  | ok a => simpa only [ran] using after
  | error e => simpa only [ran] using after

theorem triple_rescue {answer : ε → Option α} (triple : Triple P m Q E)
    (answered : ∀ a s, E s → Q a s) : Triple P (rescue answer m) Q E := by
  intro s before
  have after := triple s before
  unfold rescue
  rcases ran : m.run s with ⟨outcome, s'⟩
  rw [ran] at after
  cases outcome with
  | ok a => simpa only [ran] using after
  | error e =>
    simp only [ran]
    cases told : answer e with
    | some a => exact answered a s' after
    | none => exact after

theorem triple_within {τ : Type} {part : τ → σ} {replace : τ → σ → τ} {P : τ → Prop} {Q : α → τ → Prop}
    {E : τ → Prop} (triple : ∀ t, P t → Triple (· = part t) m (fun a s => Q a (replace t s)) fun s => E (replace t s)) :
    Triple P (within part replace m) Q E := by
  intro t before
  have after := triple t before (part t) rfl
  unfold within
  rcases ran : m.run (part t) with ⟨outcome, s'⟩
  rw [ran] at after
  cases outcome with
  | ok a => simpa only [ran] using after
  | error e => simpa only [ran] using after

theorem keeps_atomically (kept : Triple I m (fun _ => I) fun _ => True) : Keeps I (atomically m) := by
  refine triple_atomically fun s before s' same => ?_
  subst same
  have after := kept s' before
  rcases ran : m.run s' with ⟨outcome, final⟩
  rw [ran] at after
  cases outcome with
  | ok a => exact after
  | error e => exact before

theorem atomically_throws {s s' : σ} {e : ε} (threw : (atomically m).run s = (.error e, s')) : s' = s := by
  unfold atomically at threw
  dsimp only at threw
  split at threw
  · cases threw
  · cases threw
    rfl

theorem left_keeps (triple : Triple P m (fun _ => E) E) (before : P s) : E (left m s) := by
  have after := triple s before
  unfold left
  rcases ran : m.run s with ⟨outcome, s'⟩
  rw [ran] at after
  cases outcome with
  | ok a => exact after
  | error e => exact after

end Durable
