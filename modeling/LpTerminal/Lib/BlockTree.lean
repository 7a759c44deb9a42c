import Mathlib.Logic.Function.Iterate

/-!
Blocks that are named by hashes, each over its parent. A chain is the hash of its last block.
-/

structure BlockTree where
  number : ℕ → ℕ
  parent : ℕ → ℕ
  below : ∀ hash, 0 < number hash → number (parent hash) + 1 = number hash

namespace BlockTree

variable (tree : BlockTree) {head hash other : ℕ} {m n : ℕ}

def blockAt (head n : ℕ) : ℕ := tree.parent^[tree.number head - n] head

def OnChain (head hash : ℕ) : Prop := tree.number hash ≤ tree.number head ∧ tree.blockAt head (tree.number hash) = hash

instance : Decidable (tree.OnChain head hash) := inferInstanceAs (Decidable (_ ∧ _))

variable {tree}

theorem number_iterate (steps : ℕ) (inside : steps ≤ tree.number head) : tree.number (tree.parent^[steps] head) + steps = tree.number head := by
  induction steps with
  | zero => rfl
  | succ steps ih =>
    have before := ih (by omega)
    have step := tree.below (tree.parent^[steps] head) (by omega)
    rw [Function.iterate_succ_apply']
    omega

theorem number_blockAt (inside : n ≤ tree.number head) : tree.number (tree.blockAt head n) = n := by
  have counted := @number_iterate tree head (tree.number head - n) (Nat.sub_le _ _)
  unfold blockAt
  omega

theorem blockAt_blockAt (lower : m ≤ n) (inside : n ≤ tree.number head) :
    tree.blockAt (tree.blockAt head n) m = tree.blockAt head m := by
  change tree.parent^[tree.number (tree.blockAt head n) - m] (tree.parent^[tree.number head - n] head) = _
  have steps : n - m + (tree.number head - n) = tree.number head - m := by omega
  rw [number_blockAt inside, ← Function.iterate_add_apply, steps]
  rfl

theorem onChain_blockAt (inside : n ≤ tree.number head) : tree.OnChain head (tree.blockAt head n) := by
  refine ⟨by rw [number_blockAt inside]; exact inside, ?_⟩
  rw [number_blockAt inside]

theorem OnChain.blockAt (onChain : tree.OnChain head hash) (lower : m ≤ tree.number hash) :
    tree.blockAt hash m = tree.blockAt head m := by
  have same := blockAt_blockAt lower onChain.1
  rw [onChain.2] at same
  exact same

theorem OnChain.trans (first : tree.OnChain head hash) (second : tree.OnChain hash other) : tree.OnChain head other := by
  refine ⟨Nat.le_trans second.1 first.1, ?_⟩
  rw [← first.blockAt second.1]
  exact second.2

theorem OnChain.below (first : tree.OnChain head hash) (second : tree.OnChain head other) (lower : tree.number other ≤ tree.number hash) :
    tree.OnChain hash other := by
  refine ⟨lower, ?_⟩
  rw [first.blockAt lower]
  exact second.2

theorem OnChain.eq (first : tree.OnChain head hash) (second : tree.OnChain head other) (level : tree.number hash = tree.number other) :
    hash = other := by
  rw [← first.2, ← second.2, level]

end BlockTree
