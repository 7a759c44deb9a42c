import Mathlib.Data.List.Sort

/-!
Where a stable sort puts an element: behind what its order puts first, and behind what is level with it and came first.
-/

namespace StableSort

variable {α β : Type*} [DecidableEq α] [DecidableEq β]

theorem pair_sublist_iff {rows : List α} (distinct : rows.Nodup) {x y : α} :
    [x, y].Sublist rows ↔ x ∈ rows ∧ y ∈ rows ∧ rows.idxOf x < rows.idxOf y := by
  induction rows with
  | nil => simp
  | cons first rest ih =>
    obtain ⟨absent, distinct⟩ := List.nodup_cons.mp distinct
    rw [List.sublist_cons_iff, ih distinct]
    by_cases here : first = x
    · subst here
      by_cases there : first = y
      · subst there
        simp [absent]
      · simp [absent, there, Ne.symm there, List.idxOf_cons_ne]
    · by_cases there : first = y
      · subst there
        simp [absent, here, Ne.symm here]
      · simp [here, there, Ne.symm here, Ne.symm there, List.idxOf_cons_ne]

theorem mem_drop_iff {rows : List α} (distinct : rows.Nodup) {n : ℕ} {x : α} :
    x ∈ rows.drop n ↔ x ∈ rows ∧ n ≤ rows.idxOf x := by
  constructor
  · intro left
    refine ⟨List.mem_of_mem_drop left, ?_⟩
    by_contra early
    have taken := (List.mem_take_iff_idxOf_lt (List.mem_of_mem_drop left)).mpr (not_le.mp early)
    exact (List.disjoint_take_drop distinct le_rfl) taken left
  · rintro ⟨inside, late⟩
    have apart : x ∉ rows.take n := fun taken => by
      have early := (List.mem_take_iff_idxOf_lt inside).mp taken
      omega
    rw [← List.take_append_drop n rows] at inside
    exact (List.mem_append.mp inside).resolve_left apart

theorem length_filter_idxOf {rows : List α} (distinct : rows.Nodup) (x : α) :
    (rows.filter fun y => rows.idxOf y < rows.idxOf x).length = rows.idxOf x := by
  have front : (rows.filter fun y => rows.idxOf y < rows.idxOf x).Perm (rows.take (rows.idxOf x)) := by
    refine (List.perm_ext_iff_of_nodup (distinct.filter _) (distinct.sublist (List.take_sublist _ _))).mpr fun y => ?_
    simp only [List.mem_filter, decide_eq_true_eq]
    constructor
    · exact fun ⟨member, early⟩ => (List.mem_take_iff_idxOf_lt member).mpr early
    · intro taken
      have member := List.mem_of_mem_take taken
      exact ⟨member, (List.mem_take_iff_idxOf_lt member).mp taken⟩
  rw [front.length_eq, List.length_take_of_le (List.idxOf_le_length)]

theorem idxOf_map {f : α → β} {rows : List α} {x : α} (alone : ∀ y ∈ rows, f y = f x → y = x) :
    (rows.map f).idxOf (f x) = rows.idxOf x := by
  induction rows with
  | nil => rfl
  | cons first rest ih =>
    have tail := ih fun y member => alone y (List.mem_cons_of_mem first member)
    by_cases here : first = x
    · subst here
      simp
    · have apart : f first ≠ f x := fun same => here (alone first List.mem_cons_self same)
      rw [List.map_cons, List.idxOf_cons_ne _ apart, List.idxOf_cons_ne _ here, tail]

theorem idxOf_lt_take {rows : List α} {n : ℕ} {x y : α} (shown : y ∈ rows.take n) :
    (rows.take n).idxOf x < (rows.take n).idxOf y ↔ rows.idxOf x < rows.idxOf y := by
  have second : rows.idxOf y = (rows.take n).idxOf y := by
    conv_lhs => rw [← List.take_append_drop n rows, List.idxOf_append_of_mem shown]
  rw [second]
  by_cases early : x ∈ rows.take n
  · conv_rhs => rw [← List.take_append_drop n rows, List.idxOf_append_of_mem early]
    rw [List.take_append_drop]
  · have late : (rows.take n).length ≤ rows.idxOf x := by
      conv_rhs => rw [← List.take_append_drop n rows, List.idxOf_append_of_notMem early]
      omega
    have inside := List.idxOf_lt_length_of_mem shown
    rw [List.idxOf_of_notMem early]
    omega

section Sorted

variable (le : α → α → Bool)

/-- `x` comes before `y`, or they are level and it came first. -/
def Ahead (rows : List α) (x y : α) : Prop := le x y ∧ (le y x → rows.idxOf x < rows.idxOf y)

instance (rows : List α) (x y : α) : Decidable (Ahead le rows x y) := inferInstanceAs (Decidable (_ ∧ (_ → _)))

variable {le} {rows : List α}

theorem idxOf_lt_iff (trans : ∀ a b c, le a b → le b c → le a c) (total : ∀ a b, le a b || le b a) (distinct : rows.Nodup)
    {x y : α} (first : x ∈ rows) (second : y ∈ rows) :
    (rows.mergeSort le).idxOf x < (rows.mergeSort le).idxOf y ↔ Ahead le rows x y := by
  have perm := List.mergeSort_perm rows le
  have distinct' : (rows.mergeSort le).Nodup := perm.nodup_iff.mpr distinct
  have sorted := List.pairwise_mergeSort trans total rows
  have pair : ∀ {a b}, a ∈ rows → b ∈ rows → (rows.mergeSort le).idxOf a < (rows.mergeSort le).idxOf b → le a b := by
    intro a b hereA hereB early
    have sub := (pair_sublist_iff distinct').mpr ⟨perm.mem_iff.mpr hereA, perm.mem_iff.mpr hereB, early⟩
    simpa using sorted.sublist sub
  have stable : ∀ {a b}, a ∈ rows → b ∈ rows → le a b → rows.idxOf a < rows.idxOf b →
      (rows.mergeSort le).idxOf a < (rows.mergeSort le).idxOf b := by
    intro a b hereA hereB below early
    have sub := (pair_sublist_iff distinct).mpr ⟨hereA, hereB, early⟩
    exact ((pair_sublist_iff distinct').mp (List.pair_sublist_mergeSort trans total below sub)).2.2
  have apart : ∀ (list : List α) {a b}, a ∈ list → list.idxOf a = list.idxOf b → a = b := fun list a b member same =>
    (List.idxOf_inj member).mp same
  constructor
  · intro early
    refine ⟨pair first second early, fun level => ?_⟩
    by_contra late
    rcases (not_lt.mp late).lt_or_eq with before | same
    · have back := stable second first level before
      omega
    · have equal := apart rows second same
      subst equal
      omega
  · rintro ⟨below, tie⟩
    by_contra late
    rcases (not_lt.mp late).lt_or_eq with before | same
    · have back := stable first second below (tie (pair second first before))
      omega
    · have equal := apart _ (perm.mem_iff.mpr second) same
      subst equal
      exact lt_irrefl _ (tie below)

theorem mem_drop_mergeSort_iff (trans : ∀ a b c, le a b → le b c → le a c) (total : ∀ a b, le a b || le b a)
    (distinct : rows.Nodup) {n : ℕ} {x : α} :
    x ∈ (rows.mergeSort le).drop n ↔ x ∈ rows ∧ n ≤ (rows.filter fun y => Ahead le rows y x).length := by
  have perm := List.mergeSort_perm rows le
  have distinct' : (rows.mergeSort le).Nodup := perm.nodup_iff.mpr distinct
  rw [mem_drop_iff distinct', perm.mem_iff]
  refine and_congr_right fun inside => ?_
  rw [← length_filter_idxOf distinct' x, (perm.filter _).length_eq]
  have same : ∀ y ∈ rows, decide ((rows.mergeSort le).idxOf y < (rows.mergeSort le).idxOf x) = decide (Ahead le rows y x) :=
    fun y member => decide_eq_decide.mpr (idxOf_lt_iff trans total distinct member inside)
  rw [List.filter_congr same]

end Sorted

end StableSort
