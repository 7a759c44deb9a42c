import Mathlib.Algebra.Order.BigOperators.Group.List
import Mathlib.Data.List.Nodup
import Mathlib.Data.Prod.Lex

/-!
Tables with a primary key, kept in key order: reading every row yields them as `ORDER BY` would.
-/

variable {κ ρ : Type*} [LinearOrder κ]

structure Table (key : ρ → κ) where
  rows : List ρ
  sorted : rows.Pairwise (fun first second => key first < key second)

namespace Table

variable {key : ρ → κ}

/-- The row list with `row` in the place of the row of its key, or inserted there. -/
def place (key : ρ → κ) (row : ρ) : List ρ → List ρ
  | [] => [row]
  | first :: rest =>
    if key first < key row then first :: place key row rest
    else if key first = key row then row :: rest
    else row :: first :: rest

variable {rows : List ρ}

theorem mem_place {row other : ρ}
    (sorted : rows.Pairwise (fun first second => key first < key second)) :
    other ∈ place key row rows ↔ other = row ∨ (other ∈ rows ∧ key other ≠ key row) := by
  induction rows with
  | nil => simp [place]
  | cons first rest ih =>
    obtain ⟨ahead, sorted⟩ := List.pairwise_cons.mp sorted
    unfold place
    split
    · rename_i before
      simp only [List.mem_cons, ih sorted]
      constructor
      · rintro (rfl | rfl | ⟨inside, different⟩)
        · exact Or.inr ⟨Or.inl rfl, before.ne⟩
        · exact Or.inl rfl
        · exact Or.inr ⟨Or.inr inside, different⟩
      · rintro (rfl | ⟨rfl | inside, different⟩)
        · exact Or.inr (Or.inl rfl)
        · exact Or.inl rfl
        · exact Or.inr (Or.inr ⟨inside, different⟩)
    · rename_i notBefore
      have later : ∀ next ∈ rest, key next ≠ key row := fun next member =>
        (lt_of_le_of_lt (not_lt.mp notBefore) (ahead next member)).ne'
      split
      · rename_i same
        simp only [List.mem_cons]
        constructor
        · rintro (rfl | inside)
          · exact Or.inl rfl
          · exact Or.inr ⟨Or.inr inside, later other inside⟩
        · rintro (rfl | ⟨rfl | inside, different⟩)
          · exact Or.inl rfl
          · exact absurd same different
          · exact Or.inr inside
      · rename_i different
        simp only [List.mem_cons]
        constructor
        · rintro (rfl | rfl | inside)
          · exact Or.inl rfl
          · exact Or.inr ⟨Or.inl rfl, different⟩
          · exact Or.inr ⟨Or.inr inside, later other inside⟩
        · rintro (rfl | ⟨inside, _⟩)
          · exact Or.inl rfl
          · exact Or.inr inside

theorem place_sorted {row : ρ}
    (sorted : rows.Pairwise (fun first second => key first < key second)) :
    (place key row rows).Pairwise (fun first second => key first < key second) := by
  induction rows with
  | nil => simp [place]
  | cons first rest ih =>
    obtain ⟨ahead, tail⟩ := List.pairwise_cons.mp sorted
    unfold place
    split
    · rename_i before
      refine List.pairwise_cons.mpr ⟨fun next member => ?_, ih tail⟩
      rcases (mem_place tail).mp member with rfl | ⟨old, _⟩
      · exact before
      · exact ahead next old
    · rename_i notBefore
      split
      · rename_i same
        exact List.pairwise_cons.mpr ⟨fun next member => same ▸ ahead next member, tail⟩
      · rename_i different
        have first_after : key row < key first := lt_of_le_of_ne (not_lt.mp notBefore) (Ne.symm different)
        refine List.pairwise_cons.mpr ⟨fun next member => ?_, sorted⟩
        rcases List.mem_cons.mp member with rfl | old
        · exact first_after
        · exact first_after.trans (ahead next old)

def empty : Table key := ⟨[], List.Pairwise.nil⟩

def get? (table : Table key) (k : κ) : Option ρ :=
  table.rows.find? (fun row => key row = k)

def put (table : Table key) (row : ρ) : Table key :=
  ⟨place key row table.rows, place_sorted table.sorted⟩

variable {k : κ}

theorem get?_key {table : Table key} {row : ρ} (read : table.get? k = some row) : key row = k := by
  simpa using List.find?_some read

theorem get?_mem {table : Table key} {row : ρ} (read : table.get? k = some row) : row ∈ table.rows :=
  List.mem_of_find?_eq_some read

theorem eq_of_key {table : Table key} {first second : ρ} (left : first ∈ table.rows) (right : second ∈ table.rows)
    (same : key first = key second) : first = second := by
  have distinct : (table.rows.map key).Nodup := List.pairwise_map.mpr (table.sorted.imp fun before => before.ne)
  exact List.inj_on_of_nodup_map distinct left right same

theorem get?_of_mem {table : Table key} {row : ρ} (member : row ∈ table.rows) : table.get? (key row) = some row := by
  cases read : table.get? (key row) with
  | none =>
    have missing := List.find?_eq_none.mp read row member
    simp at missing
  | some found => rw [eq_of_key (get?_mem read) member (get?_key read)]

theorem mem_put {table : Table key} {row other : ρ} :
    other ∈ (table.put row).rows ↔ other = row ∨ (other ∈ table.rows ∧ key other ≠ key row) :=
  mem_place table.sorted

@[simp] theorem get?_put_same (table : Table key) (row : ρ) : (table.put row).get? (key row) = some row :=
  get?_of_mem (mem_put.mpr (Or.inl rfl))

theorem get?_put_other {table : Table key} {row : ρ} (other : k ≠ key row) :
    (table.put row).get? k = table.get? k := by
  cases read : table.get? k with
  | some found =>
    have place := mem_put.mpr (Or.inr ⟨get?_mem read, by rw [get?_key read]; exact other⟩ : found = row ∨ _)
    rw [← get?_key read, get?_of_mem place]
  | none =>
    cases after : (table.put row).get? k with
    | none => rfl
    | some found =>
      rcases mem_put.mp (get?_mem after) with rfl | ⟨old, _⟩
      · exact absurd (get?_key after).symm other
      · rw [← get?_key after, get?_of_mem old] at read
        exact absurd read (by simp)

theorem place_perm {row : ρ} (sorted : rows.Pairwise (fun first second => key first < key second)) :
    (place key row rows).Perm (row :: rows.filter fun other => key other ≠ key row) := by
  induction rows with
  | nil => exact List.Perm.refl _
  | cons first rest ih =>
    obtain ⟨ahead, tail⟩ := List.pairwise_cons.mp sorted
    unfold place
    split
    · rename_i before
      rw [List.filter_cons, if_pos (by simpa using before.ne)]
      exact ((ih tail).cons first).trans (List.Perm.swap row first _)
    · rename_i notBefore
      have others : rest.filter (fun other => key other ≠ key row) = rest := by
        refine List.filter_eq_self.mpr fun other member => ?_
        simpa using (lt_of_le_of_lt (not_lt.mp notBefore) (ahead other member)).ne'
      rw [List.filter_cons, others]
      split
      · rename_i same
        rw [if_neg (by simpa using same)]
      · rename_i different
        rw [if_pos (by simpa using different)]

theorem put_perm {table : Table key} {row : ρ} :
    (table.put row).rows.Perm (row :: table.rows.filter fun other => key other ≠ key row) :=
  place_perm table.sorted

def adjust (table : Table key) (edit : ρ → ρ) (same : ∀ row, key (edit row) = key row) : Table key where
  rows := table.rows.map edit
  sorted := List.pairwise_map.mpr (table.sorted.imp fun before => by rw [same, same]; exact before)

variable {edit : ρ → ρ}

theorem get?_adjust {table : Table key} {same : ∀ row, key (edit row) = key row} :
    (table.adjust edit same).get? k = (table.get? k).map edit := by
  unfold get? adjust
  dsimp only
  rw [List.find?_map]
  refine congrArg _ (congrArg (fun p => table.rows.find? p) (funext fun row => ?_))
  change decide (key (edit row) = k) = decide (key row = k)
  rw [same]

theorem adjust_id (table : Table key) : table.adjust (fun row => row) (fun _ => rfl) = table := by
  unfold adjust
  congr 1
  exact List.map_id' table.rows

theorem place_eq_map (same : ∀ row, key (edit row) = key row) {old : ρ}
    (sorted : rows.Pairwise (fun first second => key first < key second)) (member : old ∈ rows) :
    place key (edit old) rows = rows.map fun row => if key row = key old then edit row else row := by
  induction rows with
  | nil => cases member
  | cons first rest ih =>
    obtain ⟨ahead, sorted⟩ := List.pairwise_cons.mp sorted
    unfold place
    rw [same, List.map_cons]
    rcases List.mem_cons.mp member with rfl | later
    · have others : rest.map (fun row => if key row = key old then edit row else row) = rest :=
        List.map_congr_left (fun row inside => if_neg (ahead row inside).ne') |>.trans (List.map_id' rest)
      rw [if_neg (lt_irrefl _), if_pos rfl, if_pos rfl, others]
    · have before := ahead old later
      rw [if_pos before, if_neg before.ne, ih sorted later]

theorem put_eq_adjust {table : Table key} {edit : ρ → ρ} (same : ∀ row, key (edit row) = key row) {k : κ} {old : ρ}
    (read : table.get? k = some old) :
    table.put (edit old) = table.adjust (fun row => if key row = k then edit row else row) (fun row => by split <;> simp [same]) := by
  have found := get?_key read
  subst found
  unfold put adjust
  congr 1
  exact place_eq_map same table.sorted (get?_mem read)

def keep (table : Table key) (kept : ρ → Bool) : Table key :=
  ⟨table.rows.filter kept, table.sorted.filter kept⟩

theorem mem_keep {table : Table key} {kept : ρ → Bool} {row : ρ} :
    row ∈ (table.keep kept).rows ↔ row ∈ table.rows ∧ kept row := List.mem_filter

theorem get?_keep {table : Table key} {kept : ρ → Bool} :
    (table.keep kept).get? k = (table.get? k).filter kept := by
  cases read : table.get? k with
  | none =>
    cases after : (table.keep kept).get? k with
    | none => rfl
    | some row =>
      have old := get?_of_mem (mem_keep.mp (get?_mem after)).1
      rw [get?_key after, read] at old
      cases old
  | some row =>
    have own := get?_key read
    subst own
    by_cases stays : kept row
    · rw [get?_of_mem (mem_keep.mpr ⟨get?_mem read, stays⟩)]
      exact (Option.filter_some_pos stays).symm
    · cases after : (table.keep kept).get? (key row) with
      | none => exact (Option.filter_some_eq_none.mpr stays).symm
      | some found =>
        obtain ⟨old, keeps⟩ := mem_keep.mp (get?_mem after)
        rw [eq_of_key old (get?_mem read) (get?_key after)] at keeps
        exact absurd keeps stays

def remove (table : Table key) (k : κ) : Table key :=
  table.keep fun row => key row ≠ k

theorem mem_remove {table : Table key} {row : ρ} : row ∈ (table.remove k).rows ↔ row ∈ table.rows ∧ key row ≠ k := by
  simp [remove, mem_keep]

theorem get?_remove_same (table : Table key) (k : κ) : (table.remove k).get? k = none := by
  cases read : (table.remove k).get? k with
  | none => rfl
  | some row => exact absurd (get?_key read) (mem_remove.mp (get?_mem read)).2

theorem get?_remove_other {table : Table key} {k other : κ} (apart : other ≠ k) :
    (table.remove k).get? other = table.get? other := by
  cases read : table.get? other with
  | some row =>
    have kept : row ∈ (table.remove k).rows := mem_remove.mpr ⟨get?_mem read, by rw [get?_key read]; exact apart⟩
    rw [← get?_key read, get?_of_mem kept]
  | none =>
    cases after : (table.remove k).get? other with
    | none => rfl
    | some row =>
      have old := get?_of_mem (mem_remove.mp (get?_mem after)).1
      rw [get?_key after, read] at old
      cases old

theorem ext_mem {first second : Table key} (members : ∀ row, row ∈ first.rows ↔ row ∈ second.rows) : first = second := by
  have distinct : ∀ table : Table key, table.rows.Nodup := fun table =>
    List.Nodup.of_map key (List.pairwise_map.mpr (table.sorted.imp fun before => before.ne))
  have perm : first.rows.Perm second.rows := (List.perm_ext_iff_of_nodup (distinct first) (distinct second)).mpr members
  obtain ⟨rows, sorted⟩ := first
  obtain ⟨others, ordered⟩ := second
  have rowsEq : rows = others :=
    perm.eq_of_pairwise (fun _ _ _ _ before after => absurd (before.trans after) (lt_irrefl _)) sorted ordered
  subst rowsEq
  rfl

theorem ext_get? {first second : Table key} (same : ∀ k, first.get? k = second.get? k) : first = second :=
  ext_mem fun row =>
    ⟨fun member => get?_mem ((same (key row)).symm.trans (get?_of_mem member)),
      fun member => get?_mem ((same (key row)).trans (get?_of_mem member))⟩

theorem put_present {table : Table key} {row : ρ} (member : row ∈ table.rows) : table.put row = table := by
  refine ext_mem fun other => mem_put.trans ⟨?_, fun inside => ?_⟩
  · rintro (rfl | ⟨inside, _⟩)
    · exact member
    · exact inside
  · by_cases same : key other = key row
    · exact Or.inl (eq_of_key inside member same)
    · exact Or.inr ⟨inside, same⟩

theorem not_mem_of_get? {table : Table key} (missing : table.get? k = none) {row : ρ} (member : row ∈ table.rows) :
    key row ≠ k := by
  intro same
  subst same
  rw [get?_of_mem member] at missing
  cases missing

theorem put_perm_remove {table : Table key} {row : ρ} : (table.put row).rows.Perm (row :: (table.remove (key row)).rows) :=
  put_perm

theorem remove_absent {table : Table key} (missing : table.get? k = none) : (table.remove k).rows = table.rows :=
  List.filter_eq_self.mpr fun row member => by simpa using not_mem_of_get? missing member

theorem put_perm_new {table : Table key} {row : ρ} (missing : table.get? (key row) = none) :
    (table.put row).rows.Perm (row :: table.rows) := by
  have perm := @put_perm_remove _ _ _ key table row
  rwa [remove_absent missing] at perm

theorem perm_remove {table : Table key} {row : ρ} (member : row ∈ table.rows) :
    table.rows.Perm (row :: (table.remove (key row)).rows) := by
  have same : table.put row = table := by
    refine ext_get? fun k => ?_
    by_cases here : k = key row
    · rw [here, get?_put_same, get?_of_mem member]
    · exact get?_put_other here
  have perm := @put_perm_remove _ _ _ key table row
  rwa [same] at perm

theorem foldl_take {σ : Type*} {part : σ → Table key} {take : σ → ρ → σ} {holds : σ → Prop}
    (gone : ∀ s row, part (take s row) = (part s).remove (key row))
    (each : ∀ s row, row ∈ (part s).rows → holds s → holds (take s row)) {rows : List ρ}
    (apart : rows.Pairwise fun first second => key first ≠ key second) {s : σ} (inside : ∀ row ∈ rows, row ∈ (part s).rows)
    (before : holds s) : holds (rows.foldl take s) := by
  induction rows generalizing s with
  | nil => exact before
  | cons row rest ih =>
    obtain ⟨ahead, apart⟩ := List.pairwise_cons.mp apart
    obtain ⟨own, later⟩ := List.forall_mem_cons.mp inside
    refine ih apart (fun other member => ?_) (each s row own before)
    rw [gone]
    exact mem_remove.mpr ⟨later other member, (ahead other member).symm⟩

theorem rows_apart (table : Table key) : table.rows.Pairwise fun first second => key first ≠ key second :=
  table.sorted.imp fun before => before.ne

theorem mem_foldl_remove {table : Table key} {row : ρ} :
    row ∈ (rows.foldl (fun table old => table.remove (key old)) table).rows ↔
      row ∈ table.rows ∧ ∀ old ∈ rows, key row ≠ key old := by
  induction rows generalizing table with
  | nil => simp
  | cons first rest ih =>
    rw [List.foldl_cons, ih, mem_remove, List.forall_mem_cons, and_assoc]

theorem mem_foldl_put {table : Table key} {other : ρ} (member : other ∈ (rows.foldl put table).rows) :
    other ∈ rows ∨ other ∈ table.rows := by
  induction rows generalizing table with
  | nil => exact Or.inr member
  | cons row rest ih =>
    rcases ih member with later | before
    · exact Or.inl (List.mem_cons_of_mem _ later)
    · rcases mem_put.mp before with rfl | ⟨old, _⟩
      · exact Or.inl List.mem_cons_self
      · exact Or.inr old

theorem get?_put_none {table : Table key} {row : ρ} :
    (table.put row).get? k = none ↔ key row ≠ k ∧ table.get? k = none := by
  by_cases here : k = key row
  · subst here
    simp
  · rw [get?_put_other here]
    simp [Ne.symm here]

theorem get?_foldl_put_none {table : Table key} :
    (rows.foldl put table).get? k = none ↔ (∀ row ∈ rows, key row ≠ k) ∧ table.get? k = none := by
  induction rows generalizing table with
  | nil => simp
  | cons row rest ih =>
    rw [List.foldl_cons, ih, get?_put_none, List.forall_mem_cons]
    tauto

theorem get?_foldl_put_other {table : Table key} (others : ∀ row ∈ rows, k ≠ key row) :
    (rows.foldl put table).get? k = table.get? k := by
  induction rows generalizing table with
  | nil => rfl
  | cons row rest ih =>
    obtain ⟨own, later⟩ := List.forall_mem_cons.mp others
    rw [List.foldl_cons, ih later, get?_put_other own]

theorem get?_foldl_put_of_mem {table : Table key} (apart : rows.Pairwise fun first second => key first ≠ key second)
    {row : ρ} (member : row ∈ rows) : (rows.foldl put table).get? (key row) = some row := by
  induction rows generalizing table with
  | nil => cases member
  | cons first rest ih =>
    obtain ⟨ahead, apart⟩ := List.pairwise_cons.mp apart
    rw [List.foldl_cons]
    rcases List.mem_cons.mp member with rfl | later
    · rw [get?_foldl_put_other ahead, get?_put_same]
    · exact ih apart later

theorem get?_foldl_put_if {σ ι : Type*} {part : σ → Table key} {put' : σ → ι → σ} {rowOf : ι → ρ} {writes : ι → Prop}
    [DecidableEq ι] [DecidablePred writes]
    (each : ∀ s i, part (put' s i) = if writes i then (part s).put (rowOf i) else part s)
    (apart : ∀ i j, key (rowOf i) = key (rowOf j) → i = j) {inputs : List ι} {s : σ} {i : ι} :
    (part (inputs.foldl put' s)).get? (key (rowOf i)) =
      if i ∈ inputs ∧ writes i then some (rowOf i) else (part s).get? (key (rowOf i)) := by
  induction inputs generalizing s with
  | nil => simp
  | cons first rest ih =>
    rw [List.foldl_cons, ih, each]
    by_cases later : i ∈ rest ∧ writes i
    · rw [if_pos later, if_pos ⟨List.mem_cons_of_mem _ later.1, later.2⟩]
    · rw [if_neg later]
      by_cases here : i = first
      · subst here
        by_cases written : writes i
        · rw [if_pos written, get?_put_same, if_pos ⟨List.mem_cons_self, written⟩]
        · rw [if_neg written, if_neg (fun both => written both.2)]
      · have kept : i ∈ first :: rest ∧ writes i ↔ i ∈ rest ∧ writes i := by simp [here]
        rw [if_neg (kept.not.mpr later)]
        split
        · exact get?_put_other fun same => here (apart _ _ same)
        · rfl

section Total

variable {M : Type*}

def total [AddMonoid M] (table : Table key) (selects : ρ → Bool) (amount : ρ → M) : M :=
  ((table.rows.filter selects).map amount).sum

variable [AddCommMonoid M] {table : Table key} {selects : ρ → Bool} {amount : ρ → M}

theorem total_put {row : ρ} :
    (table.put row).total selects amount =
      (if selects row then amount row else 0) + table.total (fun other => selects other && key other ≠ key row) amount := by
  unfold total
  have same := ((@put_perm _ _ _ _ table row).filter selects).map amount
  rw [same.sum_eq, List.filter_cons, List.filter_filter]
  split
  · rw [List.map_cons, List.sum_cons]
  · rw [zero_add]

theorem total_le [Preorder M] [AddLeftMono M] {narrower : ρ → Bool} (narrows : ∀ row, narrower row → selects row)
    (nonneg : ∀ row ∈ table.rows, 0 ≤ amount row) : table.total narrower amount ≤ table.total selects amount := by
  refine List.Sublist.sum_le_sum ((List.monotone_filter_right table.rows narrows).map amount) fun value member => ?_
  obtain ⟨row, chosen, rfl⟩ := List.mem_map.mp member
  exact nonneg row (List.mem_of_mem_filter chosen)

theorem total_adjust (same : ∀ row, key (edit row) = key row) (kept : ∀ row, amount (edit row) = amount row) :
    (table.adjust edit same).total selects amount = table.total (selects ∘ edit) amount := by
  unfold total adjust
  dsimp only
  rw [List.filter_map, List.map_map]
  exact congrArg List.sum (congrArg (fun f => List.map f _) (funext kept))

theorem total_congr {other : ρ → Bool} (same : ∀ row ∈ table.rows, selects row = other row) :
    table.total selects amount = table.total other amount := by
  unfold total
  rw [List.filter_congr same]

theorem total_split (narrows : ρ → Bool) :
    table.total selects amount =
      table.total (fun row => selects row && narrows row) amount + table.total (fun row => selects row && !narrows row) amount := by
  unfold total
  induction table.rows with
  | nil => simp
  | cons first rest ih =>
    cases chosen : selects first with
    | false => simpa [chosen] using ih
    | true => cases narrow : narrows first <;> simp [chosen, narrow, ih, add_assoc, add_left_comm]

theorem total_ite {narrows : ρ → Prop} [DecidablePred narrows] :
    table.total selects (fun row => if narrows row then amount row else 0) =
      table.total (fun row => selects row && decide (narrows row)) amount := by
  unfold total
  induction table.rows with
  | nil => rfl
  | cons first rest ih =>
    cases chosen : selects first with
    | false => simpa [chosen] using ih
    | true => by_cases narrow : narrows first <;> simp [chosen, narrow, ih]

theorem filter_key (table : Table key) (k : κ) : table.rows.filter (fun row => key row = k) = (table.get? k).toList := by
  obtain ⟨rows, sorted⟩ := table
  unfold get?
  dsimp only
  induction rows with
  | nil => rfl
  | cons first rest ih =>
    obtain ⟨ahead, tail⟩ := List.pairwise_cons.mp sorted
    by_cases here : key first = k
    · subst here
      have others : rest.filter (fun row => key row = key first) = [] :=
        List.filter_eq_nil_iff.mpr fun row member => by simpa using (ahead row member).ne'
      simp [others]
    · simpa [here] using ih tail

theorem total_key (k : κ) : table.total (fun row => key row = k) amount = ((table.get? k).map amount).getD 0 := by
  unfold total
  rw [filter_key]
  cases table.get? k with
  | none => rfl
  | some row => simp

theorem total_remove (k : κ) :
    table.total (fun _ => true) amount = (table.remove k).total (fun _ => true) amount + ((table.get? k).map amount).getD 0 := by
  have parts := @total_split _ _ _ key _ _ table (fun _ => true) amount (fun row => decide (key row = k))
  have rest : table.total (fun row => true && !decide (key row = k)) amount = (table.remove k).total (fun _ => true) amount := by
    unfold total remove keep
    simp
  rw [parts, rest, add_comm]
  simp only [Bool.true_and]
  rw [total_key]

theorem total_put_all {row : ρ} :
    (table.put row).total (fun _ => true) amount = amount row + (table.remove (key row)).total (fun _ => true) amount := by
  have rest : table.total (fun other => true && decide (key other ≠ key row)) amount =
      (table.remove (key row)).total (fun _ => true) amount := by
    unfold total remove keep
    simp
  rw [total_put, if_pos rfl, rest]

end Total

end Table
