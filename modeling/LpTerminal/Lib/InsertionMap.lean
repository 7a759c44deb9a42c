import Mathlib.Data.List.Nodup
import Mathlib.Data.List.Perm.Basic

/-!
Maps that keep their keys in the order of their first insertion.
-/

structure InsertionMap (κ ν : Type*) where
  entries : List (κ × ν)
  apart : (entries.map Prod.fst).Nodup

namespace InsertionMap

variable {κ ν : Type*} [DecidableEq κ]

def empty : InsertionMap κ ν := ⟨[], List.nodup_nil⟩

def get? (map : InsertionMap κ ν) (k : κ) : Option ν := (map.entries.find? fun entry => entry.1 = k).map Prod.snd

def values (map : InsertionMap κ ν) : List ν := map.entries.map Prod.snd

def size (map : InsertionMap κ ν) : Nat := map.entries.length

def place (k : κ) (v : ν) : List (κ × ν) → List (κ × ν)
  | [] => [(k, v)]
  | entry :: rest => if entry.1 = k then (k, v) :: rest else entry :: place k v rest

variable {entries : List (κ × ν)} {v : ν}

theorem mem_keys_place {k other : κ} :
    other ∈ (place k v entries).map Prod.fst ↔ other = k ∨ other ∈ entries.map Prod.fst := by
  induction entries with
  | nil => simp [place]
  | cons entry rest ih =>
    unfold place
    split
    · rename_i same
      simp [same]
    · simp only [List.map_cons, List.mem_cons, ih]
      tauto

theorem place_apart {k : κ} (apart : (entries.map Prod.fst).Nodup) :
    ((place k v entries).map Prod.fst).Nodup := by
  induction entries with
  | nil => simp [place]
  | cons entry rest ih =>
    obtain ⟨own, others⟩ := List.nodup_cons.mp apart
    unfold place
    split
    · rename_i same
      subst same
      exact List.nodup_cons.mpr ⟨own, others⟩
    · rename_i different
      refine List.nodup_cons.mpr ⟨fun inside => ?_, ih others⟩
      rcases mem_keys_place.mp inside with same | old
      · exact different same
      · exact own old

def set (map : InsertionMap κ ν) (k : κ) (v : ν) : InsertionMap κ ν := ⟨place k v map.entries, place_apart map.apart⟩

theorem find?_place {k other : κ} :
    (place k v entries).find? (fun entry => entry.1 = other) =
      if other = k then some (k, v) else entries.find? (fun entry => entry.1 = other) := by
  induction entries with
  | nil =>
    by_cases same : other = k
    · simp [place, same]
    · simp [place, same, Ne.symm same]
  | cons entry rest ih =>
    unfold place
    by_cases here : entry.1 = k
    · by_cases same : other = k
      · simp [here, same]
      · simp [here, same, Ne.symm same]
    · by_cases first : entry.1 = other
      · have different : other ≠ k := fun same => here (first.trans same)
        simp [first, different]
      · simp [here, first, ih]

variable {map : InsertionMap κ ν}

theorem get?_set {k other : κ} :
    (map.set k v).get? other = if other = k then some v else map.get? other := by
  unfold get? set
  rw [find?_place]
  split <;> rfl

theorem mem_entries {k : κ} : (k, v) ∈ map.entries ↔ map.get? k = some v := by
  unfold get?
  constructor
  · intro member
    have found : map.entries.find? (fun entry => entry.1 = k) = some (k, v) := by
      obtain ⟨entries, apart⟩ := map
      induction entries with
      | nil => cases member
      | cons entry rest ih =>
        obtain ⟨own, others⟩ := List.nodup_cons.mp apart
        rcases List.mem_cons.mp member with same | later
        · simp [← same]
        · have different : entry.1 ≠ k := fun same => own (same ▸ List.mem_map_of_mem (f := Prod.fst) later)
          simpa [different] using ih others later
    rw [found]
    rfl
  · intro found
    obtain ⟨entry, read, value⟩ := Option.map_eq_some_iff.mp found
    have key := List.find?_some read
    have member := List.mem_of_find?_eq_some read
    rw [← value, ← of_decide_eq_true key]
    exact member

theorem mem_values_set {k : κ} {v other : ν} (member : other ∈ (map.set k v).values) :
    other = v ∨ other ∈ map.values := by
  obtain ⟨⟨key, value⟩, inside, rfl⟩ := List.mem_map.mp member
  have read := mem_entries.mp inside
  rw [get?_set] at read
  split at read
  · exact .inl (Option.some.inj read).symm
  · exact .inr (List.mem_map.mpr ⟨_, mem_entries.mpr read, rfl⟩)

theorem mem_values_foldl_set {ι : Type*} {key : ι → κ} {value : ι → ν} {items : List ι}
    (member : v ∈ (items.foldl (fun map item => map.set (key item) (value item)) map).values) :
    v ∈ map.values ∨ ∃ item ∈ items, value item = v := by
  induction items generalizing map with
  | nil => exact .inl member
  | cons item rest ih =>
    rcases ih member with inside | ⟨other, later, same⟩
    · rcases mem_values_set inside with rfl | old
      · exact .inr ⟨item, List.mem_cons_self, rfl⟩
      · exact .inl old
    · exact .inr ⟨other, List.mem_cons_of_mem _ later, same⟩

theorem get?_foldl_set {items : List (κ × ν)} {k : κ}
    (agree : ∀ item ∈ items, item.1 = k → item.2 = v) (known : (∃ item ∈ items, item.1 = k) ∨ map.get? k = some v) :
    (items.foldl (fun map item => map.set item.1 item.2) map).get? k = some v := by
  induction items generalizing map with
  | nil =>
    rcases known with ⟨_, member, _⟩ | old
    · cases member
    · exact old
  | cons item rest ih =>
    refine ih (fun other later => agree other (List.mem_cons_of_mem _ later)) ?_
    rw [get?_set]
    by_cases own : item.1 = k
    · rw [if_pos own.symm, agree item List.mem_cons_self own]
      exact .inr rfl
    · rw [if_neg (Ne.symm own)]
      rcases known with ⟨other, member, same⟩ | old
      · rcases List.mem_cons.mp member with rfl | later
        · exact absurd same own
        · exact .inl ⟨other, later, same⟩
      · exact .inr old

end InsertionMap
