import Mathlib.Data.List.Nodup
import Mathlib.Order.Nat

/-!
First-come-first-paired: the elements of each group take their turns in order of position, and an element that is still free pairs
with the first free one behind it that fits.
-/

variable {α γ : Type*}

/-- The pairs made once the elements of `done` have had their turn. -/
structure FirstPaired (pos : α → ℕ) (fits : α → α → Prop) (entries : List α) (done : α → Prop) (pairs : List (α × α)) : Prop where
  sound : ∀ p ∈ pairs, p.1 ∈ entries ∧ p.2 ∈ entries ∧ pos p.1 < pos p.2 ∧ fits p.1 p.2
  turns : ∀ p ∈ pairs, done p.1
  once : (pairs.flatMap fun p => [p.1, p.2]).Nodup
  /-- An element passes over one that fits only if either is taken by an earlier element, or for a nearer one. -/
  first : ∀ x ∈ entries, done x → ∀ z ∈ entries, pos x < pos z → fits x z →
    (∃ p ∈ pairs, p.2 = x) ∨ (∃ p ∈ pairs, p.2 = z ∧ pos p.1 < pos x) ∨ ∃ y, (x, y) ∈ pairs ∧ pos y ≤ pos z

namespace FirstPaired

variable {pos : α → ℕ} {fits : α → α → Prop} {entries : List α} {done : α → Prop} {pairs : List (α × α)}

theorem mem_legs {x : α} : (x ∈ pairs.flatMap fun p => [p.1, p.2]) ↔ ∃ p ∈ pairs, p.1 = x ∨ p.2 = x := by
  simp [List.mem_flatMap, eq_comm]

theorem start (none : ∀ x ∈ entries, ¬ done x) : FirstPaired pos fits entries done [] where
  sound _ member := absurd member List.not_mem_nil
  turns _ member := absurd member List.not_mem_nil
  once := List.nodup_nil
  first x inside turn := absurd turn (none x inside)

theorem congr {done' : α → Prop} (paired : FirstPaired pos fits entries done pairs) (same : ∀ x ∈ entries, done x ↔ done' x) :
    FirstPaired pos fits entries done' pairs where
  sound := paired.sound
  turns p member := (same p.1 (paired.sound p member).1).mp (paired.turns p member)
  once := paired.once
  first x inside turn := paired.first x inside ((same x inside).mpr turn)

theorem none_fits (paired : FirstPaired pos fits entries done []) {x z : α} (inside : x ∈ entries) (turn : done x)
    (other : z ∈ entries) (behind : pos x < pos z) : ¬ fits x z := by
  intro fit
  rcases paired.first x inside turn z other behind fit with ⟨_, member, -⟩ | ⟨_, member, -⟩ | ⟨_, member, -⟩ <;>
    exact List.not_mem_nil member

section Turn

variable {group : α → γ} {x : α}
  (paired : FirstPaired pos fits entries done pairs) (grouped : ∀ a b, fits a b → group a = group b)
  (earlier : ∀ w ∈ entries, done w → group w = group x → pos w < pos x)
include paired grouped earlier

theorem taken_by_earlier {z : α} (behind : pos x ≤ pos z) (same : group z = group x)
    (taken : ∃ p ∈ pairs, p.1 = z ∨ p.2 = z) : ∃ p ∈ pairs, p.2 = z ∧ pos p.1 < pos x := by
  obtain ⟨p, member, rfl | rfl⟩ := taken
  · have before := earlier p.1 (paired.sound p member).1 (paired.turns p member) same
    omega
  · obtain ⟨here, -, -, fit⟩ := paired.sound p member
    exact ⟨p, member, rfl, earlier p.1 here (paired.turns p member) ((grouped _ _ fit).trans same)⟩

omit grouped in
theorem extend_done (stays : ∀ z ∈ entries, pos x < pos z → fits x z →
      (∃ p ∈ pairs, p.2 = x) ∨ ∃ p ∈ pairs, p.2 = z ∧ pos p.1 < pos x) :
    FirstPaired pos fits entries (fun w => done w ∨ w = x) pairs where
  sound := paired.sound
  turns p member := .inl (paired.turns p member)
  once := paired.once
  first w inside turn z other behind fit := by
    rcases turn with old | rfl
    · exact paired.first w inside old z other behind fit
    · rcases stays z other behind fit with own | taken
      · exact .inl own
      · exact .inr (.inl taken)

theorem skip (taken : ∃ p ∈ pairs, p.1 = x ∨ p.2 = x) :
    FirstPaired pos fits entries (fun w => done w ∨ w = x) pairs := by
  refine extend_done paired earlier fun z _ _ _ => .inl ?_
  obtain ⟨p, member, own, -⟩ := taken_by_earlier paired grouped earlier le_rfl rfl taken
  exact ⟨p, member, own⟩

theorem alone
    (busy : ∀ z ∈ entries, pos x < pos z → fits x z → ∃ p ∈ pairs, p.1 = z ∨ p.2 = z) :
    FirstPaired pos fits entries (fun w => done w ∨ w = x) pairs := by
  refine extend_done paired earlier fun z other behind fit => .inr ?_
  exact taken_by_earlier paired grouped earlier behind.le (grouped _ _ fit).symm (busy z other behind fit)

theorem pair {y : α} (inside : x ∈ entries) (free : ¬ ∃ p ∈ pairs, p.1 = x ∨ p.2 = x) (second : y ∈ entries)
    (behind : pos x < pos y) (fit : fits x y) (untaken : ¬ ∃ p ∈ pairs, p.1 = y ∨ p.2 = y)
    (busy : ∀ z ∈ entries, pos x < pos z → pos z < pos y → fits x z → ∃ p ∈ pairs, p.1 = z ∨ p.2 = z) :
    FirstPaired pos fits entries (fun w => done w ∨ w = x) (pairs ++ [(x, y)]) where
  sound p member := by
    rcases List.mem_append.mp member with old | new
    · exact paired.sound p old
    · obtain rfl := List.mem_singleton.mp new
      exact ⟨inside, second, behind, fit⟩
  turns p member := by
    rcases List.mem_append.mp member with old | new
    · exact .inl (paired.turns p old)
    · obtain rfl := List.mem_singleton.mp new
      exact .inr rfl
  once := by
    have apart : x ≠ y := fun same => by
      rw [same] at behind
      exact lt_irrefl _ behind
    rw [List.flatMap_append, List.nodup_append]
    refine ⟨paired.once, by simp [apart], ?_⟩
    intro w old w' new same
    subst same
    rw [mem_legs] at old
    rcases List.mem_pair.mp (by simpa using new) with rfl | rfl
    · exact free old
    · exact untaken old
  first w here turn z other ahead fit' := by
    have widen : ∀ {P : α × α → Prop}, (∃ p ∈ pairs, P p) → ∃ p ∈ pairs ++ [(x, y)], P p := fun ⟨p, member, holds⟩ =>
      ⟨p, List.mem_append_left _ member, holds⟩
    rcases turn with old | rfl
    · rcases paired.first w here old z other ahead fit' with own | taken | ⟨v, member, near⟩
      · exact .inl (widen own)
      · exact .inr (.inl (widen taken))
      · exact .inr (.inr ⟨v, List.mem_append_left _ member, near⟩)
    · by_cases near : pos y ≤ pos z
      · exact .inr (.inr ⟨y, List.mem_append_right _ (List.mem_singleton.mpr rfl), near⟩)
      · have taken := busy z other ahead (not_le.mp near) fit'
        exact .inr (.inl (widen (taken_by_earlier paired grouped earlier ahead.le (grouped _ _ fit').symm taken)))

end Turn

end FirstPaired
