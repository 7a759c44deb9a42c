import Mathlib.Data.List.Basic
import Mathlib.Order.Basic

/-!
Runs of a deterministic machine, with conditions on every input in the state it meets, and runs that come to
an end because each step that counts leaves less to do.
-/

namespace Trace

variable {σ ι : Type*} {step : σ → ι → σ} {holds other : σ → ι → Prop} {keeps : σ → Prop} {s : σ}

def run (step : σ → ι → σ) (s : σ) (inputs : List ι) : σ :=
  inputs.foldl step s

/-- Every input of the run satisfies `holds` in the state it meets. -/
def Along (step : σ → ι → σ) (holds : σ → ι → Prop) : σ → List ι → Prop
  | _, [] => True
  | s, input :: rest => holds s input ∧ Along step holds (step s input) rest

@[simp] theorem run_nil (step : σ → ι → σ) (s : σ) : run step s [] = s := rfl

@[simp] theorem run_cons (step : σ → ι → σ) (s : σ) (input : ι) (rest : List ι) :
    run step s (input :: rest) = run step (step s input) rest := rfl

theorem run_append (step : σ → ι → σ) (s : σ) (before after : List ι) :
    run step s (before ++ after) = run step (run step s before) after := List.foldl_append

def decideAlong [∀ s input, Decidable (holds s input)] : ∀ (s : σ) (inputs : List ι), Decidable (Along step holds s inputs)
  | _, [] => .isTrue trivial
  | s, input :: rest =>
    have := decideAlong (step s input) rest
    inferInstanceAs (Decidable (holds s input ∧ Along step holds (step s input) rest))

instance [∀ s input, Decidable (holds s input)] {inputs : List ι} : Decidable (Along step holds s inputs) :=
  decideAlong s inputs

theorem along_append {before after : List ι} :
    Along step holds s (before ++ after) ↔
      Along step holds s before ∧ Along step holds (run step s before) after := by
  induction before generalizing s with
  | nil => simp [Along]
  | cons input rest ih => simp only [List.cons_append, Along, run_cons, ih, and_assoc]

theorem along_of_forall {allowed : ι → Prop} {inputs : List ι} (every : ∀ input ∈ inputs, allowed input) (step : σ → ι → σ) (s : σ) :
    Along step (fun _ => allowed) s inputs := by
  induction inputs generalizing s with
  | nil => trivial
  | cons input rest ih =>
    exact ⟨every input List.mem_cons_self, ih (fun other inside => every other (List.mem_cons_of_mem _ inside)) (step s input)⟩

theorem along_congr (same : ∀ s input, holds s input ↔ other s input) {inputs : List ι} :
    Along step holds s inputs ↔ Along step other s inputs := by
  induction inputs generalizing s with
  | nil => exact Iff.rfl
  | cons input rest ih => exact and_congr (same s input) ih

theorem run_keeps (stepKeeps : ∀ s input, keeps s → holds s input → keeps (step s input)) {inputs : List ι}
    (initial : keeps s) (along : Along step holds s inputs) : keeps (run step s inputs) := by
  induction inputs generalizing s with
  | nil => exact initial
  | cons input rest ih => exact ih (stepKeeps s input initial along.1) along.2

theorem run_keeps_all (stepKeeps : ∀ s input, keeps s → keeps (step s input)) (initial : keeps s) (inputs : List ι) :
    keeps (run step s inputs) := by
  induction inputs generalizing s with
  | nil => exact initial
  | cons input rest ih => exact ih (stepKeeps s input initial)

end Trace

namespace Progress

variable {σ : Type*} {world : ℕ → σ} {left : σ → ℕ} {same : σ → σ → Prop} {done : σ → Prop} {start : ℕ}

theorem stretch (refl : ∀ s, same s s) (trans : ∀ a b c, same a b → same b c → same a c) (equal : ∀ a b, same a b → left a = left b)
    (step : ∀ n ≥ start, left (world (n + 1)) < left (world n) ∨ same (world n) (world (n + 1))) {n : ℕ} (after : start ≤ n) (more : ℕ) :
    left (world (n + more)) < left (world n) ∨ same (world n) (world (n + more)) := by
  induction more with
  | zero => exact .inr (refl _)
  | succ more ih =>
    have one := step (n + more) (by omega)
    rw [Nat.add_assoc] at one
    rcases ih with fewer | kept
    · left
      rcases one with drops | stays
      · omega
      · rwa [← equal _ _ stays]
    · rcases one with drops | stays
      · left
        rwa [equal _ _ kept]
      · exact .inr (trans _ _ _ kept stays)

theorem reaches (refl : ∀ s, same s s) (trans : ∀ a b c, same a b → same b c → same a c) (equal : ∀ a b, same a b → left a = left b)
    (step : ∀ n ≥ start, left (world (n + 1)) < left (world n) ∨ same (world n) (world (n + 1)))
    (fair : ∀ n ≥ start, ¬ done (world n) → ∃ m ≥ n, same (world n) (world m) → left (world (m + 1)) < left (world m)) :
    ∀ n ≥ start, ∃ m ≥ n, done (world m) := by
  have bounded : ∀ bound, ∀ n ≥ start, left (world n) < bound → ∃ m ≥ n, done (world m) := by
    intro bound
    induction bound with
    | zero => exact fun n _ none => absurd none (Nat.not_lt_zero _)
    | succ bound ih =>
      intro n after below
      by_cases finished : done (world n)
      · exact ⟨n, Nat.le_refl n, finished⟩
      · obtain ⟨m, later, lowers⟩ := fair n after finished
        obtain ⟨more, rfl⟩ := Nat.exists_eq_add_of_le later
        rcases stretch refl trans equal step after more with fewer | kept
        · obtain ⟨last, reached, holds⟩ := ih (n + more) (by omega) (by omega)
          exact ⟨last, by omega, holds⟩
        · have drops := lowers kept
          have even := equal _ _ kept
          obtain ⟨last, reached, holds⟩ := ih (n + more + 1) (by omega) (by omega)
          exact ⟨last, by omega, holds⟩
  exact fun n after => bounded (left (world n) + 1) n after (Nat.lt_succ_self _)

end Progress
