import Mathlib.Data.List.Forall2

/-!
Inversion of computations that return or throw.
-/

namespace Fallible

universe u v w

variable {ε : Type u} {α : Type v} {β : Type w} {σ : Type w}

theorem bind_ok {ε : Type u} {α β : Type v} {m : Except ε α} {f : α → Except ε β} {b : β} (h : (m >>= f) = .ok b) :
    ∃ a, m = .ok a ∧ f a = .ok b := by
  cases m with
  | error e => cases h
  | ok a => exact ⟨a, rfl, h⟩

theorem ok_bind {ε : Type u} {α β : Type v} {a : α} {f : α → Except ε β} : (Except.ok a >>= f) = f a := rfl

theorem then_ok {ε : Type u} {α : Type} {m : Except ε Unit} {f : Unit → Except ε α} {a : α} :
    (m >>= f) = .ok a ↔ m = .ok () ∧ f () = .ok a := by
  cases m with
  | error e => exact ⟨fun h => (by cases h), fun h => (by cases h.1)⟩
  | ok u => exact ⟨fun h => ⟨rfl, h⟩, fun h => h.2⟩

def demand (condition : Prop) [Decidable condition] (e : ε) : Except ε Unit :=
  if condition then .ok () else .error e

@[simp] theorem demand_ok {condition : Prop} [Decidable condition] {e : ε} {u : Unit} :
    demand condition e = .ok u ↔ condition := by
  unfold demand
  split <;> simp [*]

theorem demand_error {condition : Prop} [Decidable condition] {e thrown : ε} (threw : demand condition e = .error thrown) :
    ¬ condition := by
  intro holds
  unfold demand at threw
  rw [if_pos holds] at threw
  cases threw

theorem demand_bind {ε : Type u} {α : Type} {condition : Prop} [Decidable condition] {e : ε} {f : Unit → Except ε α}
    (holds : condition) : (demand condition e >>= f) = f () := by
  unfold demand
  rw [if_pos holds]
  rfl

def collect (f : α → Except ε β) : List α → Except ε (List β)
  | [] => .ok []
  | item :: rest =>
    match f item with
    | .error e => .error e
    | .ok result =>
      match collect f rest with
      | .error e => .error e
      | .ok results => .ok (result :: results)

variable {results : List β}

theorem collect_ok {f : α → Except ε β} {items : List α} (h : collect f items = .ok results) :
    List.Forall₂ (fun item result => f item = .ok result) items results := by
  induction items generalizing results with
  | nil => cases h; exact .nil
  | cons item rest ih =>
    unfold collect at h
    split at h
    · cases h
    · rename_i result read
      split at h
      · cases h
      · rename_i later tail
        cases h
        exact .cons read (ih tail)

theorem foldlM_invariant {ε : Type u} {σ ι : Type v} {apply : σ → ι → Except ε σ} {holds : σ → List ι → Prop}
    (each : ∀ s item rest s', holds s (item :: rest) → apply s item = .ok s' → holds s' rest) {items : List ι} {s s' : σ}
    (before : holds s items) (ran : items.foldlM apply s = .ok s') : holds s' [] := by
  induction items generalizing s with
  | nil =>
    cases ran
    exact before
  | cons item rest ih =>
    rw [List.foldlM_cons] at ran
    obtain ⟨middle, one, later⟩ := bind_ok ran
    exact ih (each s item rest middle before one) later

theorem foldlM_keeps {ε : Type u} {σ ι : Type v} {apply : σ → ι → Except ε σ} {keeps : σ → Prop}
    (each : ∀ s item s', keeps s → apply s item = .ok s' → keeps s') {items : List ι} {s s' : σ}
    (before : keeps s) (ran : items.foldlM apply s = .ok s') : keeps s' :=
  @foldlM_invariant ε σ ι apply (fun s _ => keeps s) (fun s item _ s' => each s item s') items s s' before ran

theorem exists_result {R : α → β → Prop} {items : List α} {item : α}
    (related : List.Forall₂ R items results) (member : item ∈ items) : ∃ result ∈ results, R item result := by
  induction related with
  | nil => cases member
  | cons head tail ih =>
    rcases List.mem_cons.mp member with rfl | later
    · exact ⟨_, List.mem_cons_self, head⟩
    · obtain ⟨result, found, holds⟩ := ih later
      exact ⟨result, List.mem_cons_of_mem _ found, holds⟩

theorem exists_item {R : α → β → Prop} {items : List α} {result : β}
    (related : List.Forall₂ R items results) (member : result ∈ results) : ∃ item ∈ items, R item result := by
  obtain ⟨item, found, holds⟩ := exists_result related.flip member
  exact ⟨item, found, holds⟩

end Fallible
