import LpTerminal.Lib.Table
import Mathlib.Tactic.Ring

/-!
A pool of concentrated liquidity with a static fee: positions over ranges of ticks, the bitmap of ticks that
bound them, and the swap loop over the ticks that the price passes. The active liquidity is that of the
positions whose range holds the tick.
-/

namespace ConcentratedPool

/-- Prices at ticks, and the ticks that have one. -/
structure TickScale where
  ratio : ℤ → ℤ
  minTick : ℤ
  maxTick : ℤ
  mono : ∀ a b, minTick ≤ a → a ≤ b → b ≤ maxTick → ratio a ≤ ratio b
  pos : ∀ t, minTick ≤ t → t ≤ maxTick → 0 < ratio t

/-- The liquidity of a range, over all its owners. -/
structure Position where
  lower : ℤ
  upper : ℤ
  ordered : lower < upper
  liquidity : ℕ

def Position.range (position : Position) : ℤ ×ₗ ℤ := toLex (position.lower, position.upper)

abbrev Positions := Table Position.range

def Position.share (t : ℤ) (position : Position) : ℤ := if position.lower ≤ t ∧ t < position.upper then position.liquidity else 0

def Position.net (t : ℤ) (position : Position) : ℤ :=
  (if position.lower = t then (position.liquidity : ℤ) else 0) - if position.upper = t then (position.liquidity : ℤ) else 0

def Position.gross (t : ℤ) (position : Position) : ℕ :=
  if position.lower = t ∨ position.upper = t then position.liquidity else 0

def activeAt (positions : Positions) (t : ℤ) : ℤ := positions.total (fun _ => true) (Position.share t)

def netAt (positions : Positions) (t : ℤ) : ℤ := positions.total (fun _ => true) (Position.net t)

def initialized (positions : Positions) (t : ℤ) : Bool := positions.total (fun _ => true) (Position.gross t) ≠ 0

def liquidityOf (positions : Positions) (lower upper : ℤ) : ℕ := ((positions.get? (toLex (lower, upper))).map Position.liquidity).getD 0

variable {positions : Positions} {t a b : ℤ}

theorem share_step (position : Position) : position.share t = position.share (t - 1) + position.net t := by
  have ordered := position.ordered
  unfold Position.share Position.net
  split <;> split <;> split <;> split <;> omega

def depth (rows : List Position) (t : ℤ) : ℤ := (rows.map (Position.share t)).sum

def netOf (rows : List Position) (t : ℤ) : ℤ := (rows.map (Position.net t)).sum

def Clear (rows : List Position) (t : ℤ) : Prop := ∀ position ∈ rows, position.lower ≠ t ∧ position.upper ≠ t

variable {rows : List Position}

theorem depth_step : depth rows t = depth rows (t - 1) + netOf rows t := by
  unfold depth netOf
  induction rows with
  | nil => rfl
  | cons position rest ih =>
    have own := @share_step t position
    simp only [List.map_cons, List.sum_cons]
    omega

theorem netOf_clear (clear : Clear rows t) : netOf rows t = 0 := by
  apply List.sum_eq_zero
  intro moved member
  obtain ⟨position, known, rfl⟩ := List.mem_map.mp member
  obtain ⟨low, high⟩ := clear position known
  unfold Position.net
  rw [if_neg low, if_neg high, sub_zero]

theorem depth_clear (later : a ≤ b) (clear : ∀ t, a < t → t ≤ b → Clear rows t) : depth rows b = depth rows a := by
  induction b, later using Int.leInduction with
  | base => rfl
  | succ b later ih =>
    have step := @depth_step (b + 1) rows
    rw [netOf_clear (clear (b + 1) (by omega) le_rfl), add_sub_cancel_right] at step
    have before := ih fun t above below => clear t above (by omega)
    omega

theorem depth_nonneg : 0 ≤ depth rows t := by
  apply List.sum_nonneg
  intro amount member
  obtain ⟨position, _, rfl⟩ := List.mem_map.mp member
  unfold Position.share
  split
  · exact Int.natCast_nonneg _
  · exact le_rfl

theorem activeAt_step : activeAt positions t = activeAt positions (t - 1) + netAt positions t :=
  depth_step

theorem netAt_uninitialized (clear : initialized positions t = false) : netAt positions t = 0 := by
  have none : positions.total (fun _ => true) (Position.gross t) = 0 := by simpa [initialized] using clear
  unfold netAt
  unfold Table.total at none ⊢
  generalize positions.rows.filter (fun _ => true) = rows at none ⊢
  induction rows with
  | nil => rfl
  | cons position rest ih =>
    rw [List.map_cons, List.sum_cons] at none ⊢
    obtain ⟨own, others⟩ := Nat.add_eq_zero_iff.mp none
    rw [ih others, add_zero]
    unfold Position.gross at own
    unfold Position.net
    split at own
    · split <;> split <;> omega
    · rename_i apart
      obtain ⟨low, high⟩ := not_or.mp apart
      rw [if_neg low, if_neg high, sub_zero]

theorem activeAt_clear (later : a ≤ b) (clear : ∀ t, a < t → t ≤ b → initialized positions t = false) :
    activeAt positions b = activeAt positions a := by
  induction b, later using Int.leInduction with
  | base => rfl
  | succ b later ih =>
    have step := @activeAt_step positions (b + 1)
    rw [netAt_uninitialized (clear (b + 1) (by omega) le_rfl), add_sub_cancel_right] at step
    have before := ih fun t above below => clear t above (by omega)
    omega

theorem activeAt_put (position : Position) :
    activeAt (positions.put position) t + (if position.lower ≤ t ∧ t < position.upper then (liquidityOf positions position.lower position.upper : ℤ) else 0) =
      activeAt positions t + position.share t := by
  have old : ((positions.get? position.range).map (Position.share t)).getD 0 =
      if position.lower ≤ t ∧ t < position.upper then (liquidityOf positions position.lower position.upper : ℤ) else 0 := by
    unfold liquidityOf
    rw [show toLex (position.lower, position.upper) = position.range from rfl]
    cases read : positions.get? position.range with
    | none => simp
    | some stored =>
      have same := Table.get?_key read
      obtain ⟨lower, upper⟩ := Prod.mk.inj (toLex.injective same)
      simp only [Option.map_some, Option.getD_some]
      unfold Position.share
      rw [lower, upper]
  have put := @Table.total_put_all _ _ _ Position.range _ _ positions (Position.share t) position
  have whole := @Table.total_remove _ _ _ Position.range _ _ positions (Position.share t) position.range
  rw [old] at whole
  unfold activeAt
  rw [put, whole]
  ring

end ConcentratedPool
