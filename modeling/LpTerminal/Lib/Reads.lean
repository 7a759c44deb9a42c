import Mathlib.Data.List.Basic

/-!
Requests that read a shared store several times, while writers commit between the reads.
-/

inductive Reads (σ α : Type) where
  | done (result : α)
  | read (next : σ → Reads σ α)

namespace Reads

variable {σ α β ω : Type}

def bind : Reads σ α → (α → Reads σ β) → Reads σ β
  | done result, f => f result
  | read next, f => read fun s => (next s).bind f

def run (commit : σ → ω → σ) : Reads σ α → List (List ω) → σ → α × σ
  | done result, _, s => (result, s)
  | read next, [], s => (next s).run commit [] s
  | read next, writes :: later, s => (next (writes.foldl commit s)).run commit later (writes.foldl commit s)

variable {commit : σ → ω → σ} {allowed : σ → ω → Prop} {related : σ → σ → Prop}

def Along (commit : σ → ω → σ) (allowed : σ → ω → Prop) : List ω → σ → Prop
  | [], _ => True
  | write :: later, s => allowed s write ∧ Along commit allowed later (commit s write)

def Obeys (commit : σ → ω → σ) (allowed : σ → ω → Prop) : Reads σ α → List (List ω) → σ → Prop
  | done _, _, _ => True
  | read next, [], s => (next s).Obeys commit allowed [] s
  | read next, writes :: later, s =>
    Along commit allowed writes s ∧ (next (writes.foldl commit s)).Obeys commit allowed later (writes.foldl commit s)

/-- What allowed writes keep between any two moments. -/
structure Kept (commit : σ → ω → σ) (allowed : σ → ω → Prop) (related : σ → σ → Prop) : Prop where
  refl : ∀ s, related s s
  trans : ∀ {first second third}, related first second → related second third → related first third
  each : ∀ s write, allowed s write → related s (commit s write)

theorem Kept.foldl (kept : Kept commit allowed related) {writes : List ω} {s : σ} (along : Along commit allowed writes s) :
    related s (writes.foldl commit s) := by
  induction writes generalizing s with
  | nil => exact kept.refl s
  | cons write later ih => exact kept.trans (kept.each s write along.1) (ih along.2)

theorem along_always (always : ∀ s write, allowed s write) (writes : List ω) (s : σ) : Along commit allowed writes s := by
  induction writes generalizing s with
  | nil => exact trivial
  | cons write later ih => exact ⟨always s write, ih _⟩

theorem obeys_always (always : ∀ s write, allowed s write) (request : Reads σ α) (schedule : List (List ω)) (s : σ) :
    request.Obeys commit allowed schedule s := by
  induction request generalizing schedule s with
  | done result => exact trivial
  | read next ih =>
    cases schedule with
    | nil => exact ih s [] s
    | cons writes later => exact ⟨along_always always writes s, ih _ later _⟩

def Ensures (related : σ → σ → Prop) (Q : α → σ → Prop) : Reads σ α → σ → Prop
  | done result, s => Q result s
  | read next, s => ∀ s', related s s' → (next s').Ensures related Q s'

variable {Q Q' : α → σ → Prop} {request : Reads σ α} {s : σ}

theorem run_ensures (kept : Kept commit allowed related) {request : Reads σ α} {schedule : List (List ω)} {s : σ}
    (obeys : request.Obeys commit allowed schedule s) (ensured : request.Ensures related Q s) :
    Q (request.run commit schedule s).1 (request.run commit schedule s).2 := by
  induction request generalizing schedule s with
  | done result => exact ensured
  | read next ih =>
    cases schedule with
    | nil => exact ih s obeys (ensured s (kept.refl s))
    | cons writes later => exact ih _ obeys.2 (ensured _ (kept.foldl obeys.1))

theorem Ensures.mono (ensured : request.Ensures related Q s) (weaker : ∀ result s', Q result s' → Q' result s') :
    request.Ensures related Q' s := by
  induction request generalizing s with
  | done result => exact weaker result s ensured
  | read next ih =>
    intro s' reached
    exact ih s' (ensured s' reached)

theorem ensures_bind {f : α → Reads σ β} {Q : β → σ → Prop}
    (first : request.Ensures related (fun result s' => (f result).Ensures related Q s') s) : (request.bind f).Ensures related Q s := by
  induction request generalizing s with
  | done result => exact first
  | read next ih =>
    intro s' reached
    exact ih s' (first s' reached)

end Reads
