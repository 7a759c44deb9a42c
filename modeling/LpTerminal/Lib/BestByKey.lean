import LpTerminal.Lib.InsertionMap
import Mathlib.Order.Lattice

/-!
The first of the best items of a list, and a map that keeps it for each key: a later item replaces an earlier one only if
its score is greater.
-/

namespace BestByKey

variable {α κ β : Type*} [DecidableEq κ] [LinearOrder β] {key : α → κ} {score : α → β}

def Beats (score : α → β) (item : α) (prior : Option α) : Prop := ∀ other ∈ prior, score other < score item

instance {item : α} {prior : Option α} : Decidable (Beats score item prior) :=
  match prior with
  | none => isTrue (by simp [Beats])
  | some other => decidable_of_iff (score other < score item) (by simp [Beats])

def keep (score : α → β) (prior : Option α) (item : α) : Option α := if Beats score item prior then some item else prior

def best (score : α → β) (items : List α) : Option α := items.foldl (keep score) none

omit [DecidableEq κ] in
theorem foldl_keep (items : List α) (prior : Option α) :
    ∀ v ∈ items.foldl (keep score) prior, (v ∈ items ∨ prior = some v) ∧
      (∀ item ∈ items, score item ≤ score v) ∧ ∀ other ∈ prior, score other ≤ score v := by
  induction items generalizing prior with
  | nil =>
    rintro v rfl
    simp
  | cons item rest ih =>
    intro v found
    obtain ⟨source, later, earlier⟩ := ih (keep score prior item) v found
    unfold keep at source earlier
    split at source
    · rename_i beats
      rw [if_pos beats] at earlier
      have own : score item ≤ score v := earlier item rfl
      refine ⟨?_, ?_, fun other member => (beats other member).le.trans own⟩
      · rcases source with inside | same
        · exact .inl (List.mem_cons_of_mem _ inside)
        · exact .inl (Option.some.inj same ▸ List.mem_cons_self)
      · intro other member
        rcases List.mem_cons.mp member with rfl | tail
        · exact own
        · exact later other tail
    · rename_i beaten
      rw [if_neg beaten] at earlier
      unfold Beats at beaten
      push Not at beaten
      obtain ⟨other, held, above⟩ := beaten
      refine ⟨source.imp_left (List.mem_cons_of_mem _), ?_, earlier⟩
      intro other' member
      rcases List.mem_cons.mp member with rfl | tail
      · exact above.trans (earlier other held)
      · exact later other' tail

theorem best_mem {items : List α} {v : α} (found : best score items = some v) : v ∈ items := by
  rcases (foldl_keep items none v found).1 with inside | none
  · exact inside
  · cases none

theorem best_le {items : List α} {v item : α} (found : best score items = some v) (inside : item ∈ items) :
    score item ≤ score v :=
  (foldl_keep items none v found).2.1 item inside

theorem keep_isSome (items : List α) (prior : Option α) :
    (items.foldl (keep score) prior).isSome = (prior.isSome || !items.isEmpty) := by
  induction items generalizing prior with
  | nil => simp
  | cons item rest ih =>
    rw [List.foldl_cons, ih]
    unfold keep
    split
    · simp
    · rename_i beaten
      cases prior with
      | none => exact absurd (fun other member => by cases member) beaten
      | some other => simp

@[simp] theorem best_eq_none {items : List α} : best score items = none ↔ items = [] := by
  rw [← Option.isNone_iff_eq_none, ← Option.not_isSome, best, keep_isSome]
  simp

def visit (key : α → κ) (score : α → β) (map : InsertionMap κ α) (item : α) : InsertionMap κ α :=
  if Beats score item (map.get? (key item)) then map.set (key item) item else map

def bests (key : α → κ) (score : α → β) (items : List α) : InsertionMap κ α :=
  items.foldl (visit key score) InsertionMap.empty

/-- What the map is after the items: the entry of a key is an item of it that no other of them beats. -/
structure Keeps (key : α → κ) (score : α → β) (items : List α) (map : InsertionMap κ α) : Prop where
  keyed : ∀ k v, map.get? k = some v → v ∈ items ∧ key v = k
  covers : ∀ item ∈ items, ∃ v, map.get? (key item) = some v ∧ score item ≤ score v

variable {map : InsertionMap κ α}

theorem visit_keeps {items : List α} (keeps : Keeps key score items map) (item : α) :
    Keeps key score (items ++ [item]) (visit key score map item) := by
  unfold visit
  by_cases beats : Beats score item (map.get? (key item))
  · rw [if_pos beats]
    constructor
    · intro k v found
      rw [InsertionMap.get?_set] at found
      split at found
      · rename_i same
        obtain rfl := Option.some.inj found
        exact ⟨List.mem_append_right _ List.mem_cons_self, same.symm⟩
      · exact ⟨List.mem_append_left _ (keeps.keyed k v found).1, (keeps.keyed k v found).2⟩
    · intro other member
      rw [InsertionMap.get?_set]
      by_cases same : key other = key item
      · refine ⟨item, if_pos same, ?_⟩
        rcases List.mem_append.mp member with old | new
        · obtain ⟨v, found, below⟩ := keeps.covers other old
          exact below.trans (beats v (same ▸ found)).le
        · exact (congrArg score (List.mem_singleton.mp new)).le
      · rw [if_neg same]
        rcases List.mem_append.mp member with old | new
        · exact keeps.covers other old
        · exact absurd (congrArg key (List.mem_singleton.mp new)) same
  · rw [if_neg beats]
    constructor
    · intro k v found
      exact ⟨List.mem_append_left _ (keeps.keyed k v found).1, (keeps.keyed k v found).2⟩
    · intro other member
      rcases List.mem_append.mp member with old | new
      · exact keeps.covers other old
      · obtain rfl := List.mem_singleton.mp new
        unfold Beats at beats
        push Not at beats
        obtain ⟨v, found, below⟩ := beats
        exact ⟨v, found, below⟩

theorem foldl_keeps (rest : List α) {items : List α} (keeps : Keeps key score items map) :
    Keeps key score (items ++ rest) (rest.foldl (visit key score) map) := by
  induction rest generalizing items map with
  | nil => simpa using keeps
  | cons item rest ih => simpa using ih (visit_keeps keeps item)

theorem bests_keeps (items : List α) : Keeps key score items (bests key score items) := by
  have start : Keeps key score [] (InsertionMap.empty : InsertionMap κ α) :=
    ⟨fun k v found => by simp [InsertionMap.empty, InsertionMap.get?] at found, by simp⟩
  exact foldl_keeps items start

variable {items : List α} {v : α}

theorem mem_values : v ∈ map.values ↔ ∃ k, map.get? k = some v := by
  simp [InsertionMap.values, ← InsertionMap.mem_entries]

theorem values_subset (member : v ∈ (bests key score items).values) : v ∈ items := by
  obtain ⟨k, found⟩ := mem_values.mp member
  exact ((bests_keeps items).keyed k v found).1

theorem values_best (member : v ∈ (bests key score items).values) {item : α} (inside : item ∈ items)
    (same : key item = key v) : score item ≤ score v := by
  obtain ⟨k, found⟩ := mem_values.mp member
  obtain ⟨other, held, below⟩ : ∃ other, (bests key score items).get? (key item) = some other ∧ score item ≤ score other :=
    (bests_keeps items).covers item inside
  rw [same, ((bests_keeps items).keyed k v found).2, found] at held
  obtain rfl := Option.some.inj held
  exact below

theorem values_cover {item : α} (inside : item ∈ items) : ∃ v ∈ (bests key score items).values, key v = key item := by
  obtain ⟨v, found, -⟩ : ∃ v, (bests key score items).get? (key item) = some v ∧ score item ≤ score v :=
    (bests_keeps items).covers item inside
  exact ⟨v, mem_values.mpr ⟨_, found⟩, ((bests_keeps items).keyed _ v found).2⟩

theorem values_apart : ((bests key score items).values.map key).Nodup := by
  have keys : (bests key score items).values.map key = (bests key score items).entries.map Prod.fst := by
    unfold InsertionMap.values
    rw [List.map_map]
    apply List.map_congr_left
    rintro ⟨k, v⟩ member
    exact ((bests_keeps items).keyed k v (InsertionMap.mem_entries.mp member)).2
  rw [keys]
  exact (bests key score items).apart

end BestByKey
