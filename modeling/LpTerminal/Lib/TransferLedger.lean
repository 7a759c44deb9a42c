import Mathlib.Algebra.BigOperators.Group.List.Basic
import Mathlib.Algebra.Ring.Int.Defs

/-!
Histories of transfers between accounts, one of which mints and burns.
-/

universe u

structure Transfer (α : Type u) where
  sender : α
  receiver : α
  value : ℕ
  deriving DecidableEq

namespace Transfer

variable {α : Type u} [DecidableEq α] {source : α} {before batch : List (Transfer α)} {t : Transfer α} {account : α}

def credit (t : Transfer α) (account : α) : ℤ := if t.receiver = account then t.value else 0

def debit (t : Transfer α) (account : α) : ℤ := if t.sender = account then t.value else 0

def balance (history : List (Transfer α)) (account : α) : ℤ :=
  (history.map fun t => t.credit account - t.debit account).sum

def minted (source : α) (history : List (Transfer α)) : ℤ :=
  (history.map fun t => t.debit source).sum

def burned (source : α) (history : List (Transfer α)) : ℤ :=
  (history.map fun t => t.credit source).sum

/-- After `before`, no account but the source sends more than it has. -/
def Covered (source : α) : List (Transfer α) → List (Transfer α) → Prop
  | _, [] => True
  | before, t :: rest => (t.sender ≠ source → t.value ≤ balance before t.sender) ∧ Covered source (before ++ [t]) rest

def Paid (account : α) (history : List (Transfer α)) : Prop :=
  ∃ t ∈ history, t.receiver = account ∧ 0 < t.value

instance (account : α) (history : List (Transfer α)) : Decidable (Paid account history) :=
  inferInstanceAs (Decidable (∃ t ∈ history, _))

def Refilled (source : α) : List (Transfer α) → List (Transfer α) → Prop
  | _, [] => True
  | before, t :: rest =>
    (t.value = 0 → ∀ account ∈ [t.sender, t.receiver], account ≠ source → balance before account = 0 → Paid account rest) ∧
      Refilled source (before ++ [t]) rest

def decideCovered (source : α) : ∀ before batch : List (Transfer α), Decidable (Covered source before batch)
  | _, [] => .isTrue trivial
  | before, t :: rest =>
    have := decideCovered source (before ++ [t]) rest
    inferInstanceAs (Decidable ((t.sender ≠ source → t.value ≤ balance before t.sender) ∧ Covered source (before ++ [t]) rest))

instance : Decidable (Covered source before batch) := decideCovered source before batch

def decideRefilled (source : α) : ∀ before batch : List (Transfer α), Decidable (Refilled source before batch)
  | _, [] => .isTrue trivial
  | before, t :: rest =>
    have := decideRefilled source (before ++ [t]) rest
    inferInstanceAs (Decidable
      ((t.value = 0 → ∀ account ∈ [t.sender, t.receiver], account ≠ source → balance before account = 0 → Paid account rest) ∧
        Refilled source (before ++ [t]) rest))

instance : Decidable (Refilled source before batch) := decideRefilled source before batch

@[simp] theorem balance_nil (account : α) : balance [] account = 0 := rfl

@[simp] theorem balance_cons (t : Transfer α) (rest : List (Transfer α)) (account : α) :
    balance (t :: rest) account = t.credit account - t.debit account + balance rest account := by
  simp [balance]

theorem balance_append (before after : List (Transfer α)) (account : α) :
    balance (before ++ after) account = balance before account + balance after account := by
  simp [balance]

theorem minted_append (source : α) (before after : List (Transfer α)) :
    minted source (before ++ after) = minted source before + minted source after := by
  simp [minted]

theorem burned_append (source : α) (before after : List (Transfer α)) :
    burned source (before ++ after) = burned source before + burned source after := by
  simp [burned]

theorem balance_snoc : balance (before ++ [t]) account = balance before account + t.credit account - t.debit account := by
  rw [balance_append, balance_cons, balance_nil]
  omega

theorem credit_nonneg (t : Transfer α) (account : α) : 0 ≤ t.credit account := by
  unfold credit
  split <;> omega

theorem debit_other (other : t.sender ≠ account) : t.debit account = 0 := if_neg other

theorem credit_other (other : t.receiver ≠ account) : t.credit account = 0 := if_neg other

theorem covered_append {after : List (Transfer α)} :
    Covered source before (batch ++ after) ↔ Covered source before batch ∧ Covered source (before ++ batch) after := by
  induction batch generalizing before with
  | nil => simp [Covered]
  | cons t rest ih => simp only [List.cons_append, Covered, ih, List.append_assoc, List.nil_append, and_assoc]

theorem balance_nonneg (covered : Covered source before batch) (other : account ≠ source) (start : 0 ≤ balance before account) :
    0 ≤ balance (before ++ batch) account := by
  induction batch generalizing before with
  | nil => simpa using start
  | cons t rest ih =>
    obtain ⟨paid, covered⟩ := covered
    have next : 0 ≤ balance (before ++ [t]) account := by
      rw [balance_snoc]
      have credit := credit_nonneg t account
      by_cases sends : t.sender = account
      · have enough := paid (sends ▸ other)
        rw [sends] at enough
        have debit : t.debit account = t.value := if_pos sends
        omega
      · rw [debit_other sends]
        omega
    simpa using ih covered next

end Transfer
