import LpTerminal.Lib.Table
import Mathlib.Algebra.BigOperators.Group.List.Lemmas

/-!
Reference-counted projections: one row for each key that some member carries, with the number of
those members and a mark no greater than any of theirs.
-/

structure Counted (κ μ : Type*) where
  key : κ
  mark : μ
  refCount : Nat

abbrev RefCounts (κ μ : Type*) [LinearOrder κ] := Table (Counted.key : Counted κ μ → κ)

namespace RefCounts

variable {κ μ : Type*} [LinearOrder κ]

def lower (k : κ) (row : Counted κ μ) : Counted κ μ :=
  if row.key = k then { row with refCount := row.refCount - 1 } else row

theorem lower_key (k : κ) (row : Counted κ μ) : (lower k row).key = row.key := by
  unfold lower
  split <;> rfl

/-- Delete the row of `k` that counts one member, then take one from the count that is left. -/
def leave (counts : RefCounts κ μ) (k : κ) : RefCounts κ μ :=
  (counts.keep fun row => !(row.key = k && row.refCount = 1)).adjust (lower k) (lower_key k)

def count (counts : RefCounts κ μ) (k : κ) : Nat := ((counts.get? k).map Counted.refCount).getD 0

theorem get?_leave_same (counts : RefCounts κ μ) (k : κ) :
    (counts.leave k).get? k = (counts.get? k).bind fun row =>
      if row.refCount = 1 then none else some { row with refCount := row.refCount - 1 } := by
  unfold leave
  rw [Table.get?_adjust, Table.get?_keep]
  cases read : counts.get? k with
  | none => rfl
  | some row =>
    have own := Table.get?_key read
    by_cases single : row.refCount = 1
    · simp [own, single]
    · simp [own, single, lower]

theorem get?_leave_other {counts : RefCounts κ μ} {k other : κ} (apart : other ≠ k) :
    (counts.leave k).get? other = counts.get? other := by
  unfold leave
  rw [Table.get?_adjust, Table.get?_keep]
  cases read : counts.get? other with
  | none => rfl
  | some row =>
    have own := Table.get?_key read
    have elsewhere : row.key ≠ k := by rw [own]; exact apart
    simp [elsewhere, lower]

def Attained (members : List (κ × μ)) (counts : RefCounts κ μ) : Prop :=
  ∀ k row, counts.get? k = some row → (k, row.mark) ∈ members

theorem attained_empty : Attained ([] : List (κ × μ)) (Table.empty : RefCounts κ μ) :=
  fun _ _ read => by cases read

theorem Attained.perm {members others : List (κ × μ)} {counts : RefCounts κ μ} (attained : Attained members counts)
    (same : members.Perm others) : Attained others counts :=
  fun k row read => same.mem_iff.mp (attained k row read)

variable [LinearOrder μ]

def enter (counts : RefCounts κ μ) (k : κ) (mark : μ) : RefCounts κ μ :=
  match counts.get? k with
  | none => counts.put ⟨k, mark, 1⟩
  | some row => counts.put { row with refCount := row.refCount + 1, mark := min row.mark mark }

theorem get?_enter_same (counts : RefCounts κ μ) (k : κ) (mark : μ) :
    (counts.enter k mark).get? k = match counts.get? k with
      | none => some ⟨k, mark, 1⟩
      | some row => some { row with refCount := row.refCount + 1, mark := min row.mark mark } := by
  unfold enter
  cases read : counts.get? k with
  | none => exact Table.get?_put_same counts ⟨k, mark, 1⟩
  | some row =>
    have own := Table.get?_key read
    subst own
    exact Table.get?_put_same counts { row with refCount := row.refCount + 1, mark := min row.mark mark }

theorem get?_enter_other {counts : RefCounts κ μ} {k other : κ} {mark : μ} (apart : other ≠ k) :
    (counts.enter k mark).get? other = counts.get? other := by
  unfold enter
  cases read : counts.get? k with
  | none => exact Table.get?_put_other apart
  | some row => exact Table.get?_put_other (by rw [Table.get?_key read]; exact apart)

/-- The projection counts these members: a key and a mark for each. -/
structure Counts (members : List (κ × μ)) (counts : RefCounts κ μ) : Prop where
  counted : ∀ k, counts.count k = members.countP (fun member => member.1 = k)
  positive : ∀ k row, counts.get? k = some row → 0 < row.refCount
  below : ∀ k row, counts.get? k = some row → ∀ member ∈ members, member.1 = k → row.mark ≤ member.2

variable {members others : List (κ × μ)} {counts : RefCounts κ μ} {k : κ} {mark : μ}

theorem counts_empty : Counts ([] : List (κ × μ)) (Table.empty : RefCounts κ μ) :=
  ⟨fun _ => rfl, fun _ _ read => (nomatch read), fun _ _ read => (nomatch read)⟩

theorem Counts.perm (represents : Counts members counts) (same : members.Perm others) : Counts others counts :=
  ⟨fun k => (represents.counted k).trans (same.countP_eq _), represents.positive,
    fun k row read member inside => represents.below k row read member (same.mem_iff.mpr inside)⟩

theorem Counts.absent (represents : Counts members counts) (missing : counts.get? k = none) {member : κ × μ}
    (inside : member ∈ members) : member.1 ≠ k := by
  have none_left := represents.counted k
  rw [count, missing] at none_left
  intro same
  have counted := List.countP_eq_zero.mp none_left.symm member inside
  simp [same] at counted

variable {row : Counted κ μ}

theorem Counts.present (represents : Counts members counts) (read : counts.get? k = some row) :
    row.refCount = members.countP (fun member => member.1 = k) := by
  have counted := represents.counted k
  rw [count, read] at counted
  exact counted

theorem Counts.enter (represents : Counts members counts) (k : κ) (mark : μ) :
    Counts ((k, mark) :: members) (counts.enter k mark) := by
  refine ⟨fun other => ?_, fun other row read => ?_, fun other row read member inside own => ?_⟩
  all_goals by_cases here : other = k
  · subst here
    rw [List.countP_cons, ← represents.counted, count, count, get?_enter_same]
    cases counts.get? other <;> simp
  · rw [List.countP_cons, ← represents.counted, count, count, get?_enter_other here]
    simp [Ne.symm here]
  · subst here
    rw [get?_enter_same] at read
    cases before : counts.get? other with
    | none => rw [before] at read; cases read; exact Nat.one_pos
    | some old => rw [before] at read; cases read; exact Nat.succ_pos _
  · rw [get?_enter_other here] at read
    exact represents.positive other row read
  · subst here
    rw [get?_enter_same] at read
    cases before : counts.get? other with
    | none =>
      rw [before] at read
      cases read
      rcases List.mem_cons.mp inside with rfl | older
      · exact le_refl _
      · exact absurd own (represents.absent before older)
    | some old =>
      rw [before] at read
      cases read
      rcases List.mem_cons.mp inside with rfl | older
      · exact min_le_right _ _
      · exact (min_le_left _ _).trans (represents.below other old before member older own)
  · rw [get?_enter_other here] at read
    rcases List.mem_cons.mp inside with rfl | older
    · exact absurd own.symm here
    · exact represents.below other row read member older own

theorem Attained.enter (attained : Attained members counts) (k : κ) (mark : μ) :
    Attained ((k, mark) :: members) (counts.enter k mark) := by
  intro other row read
  by_cases here : other = k
  · subst here
    rw [get?_enter_same] at read
    cases before : counts.get? other with
    | none => rw [before] at read; cases read; exact List.mem_cons_self
    | some old =>
      rw [before] at read
      cases read
      rcases min_choice old.mark mark with least | least
      · exact List.mem_cons_of_mem _ (by simpa [least] using attained other old before)
      · simp [least]
  · rw [get?_enter_other here] at read
    exact List.mem_cons_of_mem _ (attained other row read)

theorem Counts.leave (represents : Counts ((k, mark) :: members) counts) : Counts members (counts.leave k) := by
  have own : ∀ other, counts.count other = members.countP (fun member => member.1 = other) + if k = other then 1 else 0 := by
    intro other
    rw [represents.counted other, List.countP_cons]
    simp
  refine ⟨fun other => ?_, fun other row read => ?_, fun other row read member inside same => ?_⟩
  all_goals by_cases here : other = k
  · subst here
    have before := own other
    rw [if_pos rfl, count] at before
    rw [count, get?_leave_same]
    cases read : counts.get? other with
    | none => rw [read] at before; simp at before
    | some row =>
      rw [read] at before
      simp only [Option.map_some, Option.getD_some] at before
      by_cases single : row.refCount = 1
      · simp [single]; omega
      · simp [single]; omega
  · have before := own other
    rw [if_neg (Ne.symm here), add_zero] at before
    rw [count, get?_leave_other here]
    exact before
  · subst here
    rw [get?_leave_same] at read
    cases before : counts.get? other with
    | none => rw [before] at read; cases read
    | some old =>
      have positive := represents.positive other old before
      rw [before, Option.bind_some] at read
      split at read
      · cases read
      · cases read
        dsimp only
        omega
  · rw [get?_leave_other here] at read
    exact represents.positive other row read
  · subst here
    rw [get?_leave_same] at read
    cases before : counts.get? other with
    | none => rw [before] at read; cases read
    | some old =>
      rw [before, Option.bind_some] at read
      split at read
      · cases read
      · cases read
        exact represents.below other old before member (List.mem_cons_of_mem _ inside) same
  · rw [get?_leave_other here] at read
    exact represents.below other row read member (List.mem_cons_of_mem _ inside) same

theorem Counts.member (represents : Counts members counts) (read : counts.get? k = some row) :
    ∃ member ∈ members, member.1 = k := by
  have positive := represents.positive k row read
  rw [represents.present read, List.countP_pos_iff] at positive
  obtain ⟨member, inside, own⟩ := positive
  exact ⟨member, inside, by simpa using own⟩

theorem Counts.keep (represents : Counts members counts) {kept : κ → Bool} (within : ∀ member ∈ members, kept member.1) :
    (counts.keep fun row => kept row.key) = counts := by
  refine Table.ext_get? fun k => ?_
  rw [Table.get?_keep]
  cases read : counts.get? k with
  | none => rfl
  | some row =>
    obtain ⟨member, inside, own⟩ := represents.member read
    have stays := within member inside
    rw [own, ← Table.get?_key read] at stays
    exact Option.filter_some_pos stays

theorem Counts.leave_absent (represents : Counts members counts) (strange : ∀ member ∈ members, member.1 ≠ k) :
    Counts members (counts.leave k) := by
  have missing : counts.get? k = none := by
    cases read : counts.get? k with
    | none => rfl
    | some row =>
      obtain ⟨member, inside, own⟩ := represents.member read
      exact absurd own (strange member inside)
  have same : counts.leave k = counts := by
    refine Table.ext_get? fun other => ?_
    by_cases here : other = k
    · subst here
      rw [get?_leave_same, missing, Option.bind_none]
    · exact get?_leave_other here
  rw [same]
  exact represents

def summary (members : List (κ × μ)) (member : κ × μ) : Counted κ μ where
  key := member.1
  mark := ((members.filter fun other => other.1 = member.1).map Prod.snd).foldl min member.2
  refCount := members.countP fun other => other.1 = member.1

def group (members : List (κ × μ)) : RefCounts κ μ := (members.map (summary members)).foldl Table.put Table.empty

theorem foldl_min_le {marks : List μ} {start : μ} : marks.foldl min start ≤ start ∧ ∀ mark ∈ marks, marks.foldl min start ≤ mark := by
  induction marks generalizing start with
  | nil => simp
  | cons first rest ih =>
    obtain ⟨least, others⟩ := @ih (min start first)
    refine ⟨least.trans (min_le_left _ _), fun mark member => ?_⟩
    rcases List.mem_cons.mp member with rfl | later
    · exact least.trans (min_le_right _ _)
    · exact others mark later

theorem get?_group {members : List (κ × μ)} {k : κ} (read : (group members).get? k = some row) :
    ∃ member ∈ members, member.1 = k ∧ row = summary members member := by
  rcases Table.mem_foldl_put (Table.get?_mem read) with written | old
  · obtain ⟨member, inside, rfl⟩ := List.mem_map.mp written
    have own : (summary members member).key = k := Table.get?_key read
    exact ⟨member, inside, own, rfl⟩
  · cases old

theorem group_counts (members : List (κ × μ)) : Counts members (group members) := by
  refine ⟨fun k => ?_, fun k row read => ?_, fun k row read other inside own => ?_⟩
  · unfold count
    cases read : (group members).get? k with
    | none =>
      have strange := (Table.get?_foldl_put_none.mp read).1
      refine (List.countP_eq_zero.mpr fun member inside => ?_).symm
      have apart : member.1 ≠ k := strange _ (List.mem_map_of_mem inside)
      simpa using apart
    | some row =>
      obtain ⟨member, inside, own, rfl⟩ := get?_group read
      simp [summary, own]
  · obtain ⟨member, inside, own, rfl⟩ := get?_group read
    exact List.countP_pos_iff.mpr ⟨member, inside, by simp⟩
  · obtain ⟨member, _, same, rfl⟩ := get?_group read
    refine foldl_min_le.2 other.2 (List.mem_map_of_mem (List.mem_filter.mpr ⟨inside, ?_⟩))
    simp [own, same]

theorem Counts.same_counts {second : RefCounts κ μ} (represents : Counts members counts) (also : Counts members second) (k : κ) :
    (counts.get? k).map Counted.refCount = (second.get? k).map Counted.refCount := by
  cases read : counts.get? k with
  | none =>
    cases other : second.get? k with
    | none => rfl
    | some row =>
      obtain ⟨member, inside, own⟩ := also.member other
      exact absurd own (represents.absent read inside)
  | some row =>
    cases other : second.get? k with
    | none =>
      obtain ⟨member, inside, own⟩ := represents.member read
      exact absurd own (also.absent other inside)
    | some found => rw [Option.map_some, Option.map_some, represents.present read, also.present other]

theorem Counts.same_length {ν : Type*} [LinearOrder ν] {also : List (κ × ν)} {second : RefCounts κ ν} (represents : Counts members counts)
    (represents' : Counts also second) (same : ∀ k, counts.count k = second.count k) : members.length = also.length := by
  have perm : (members.map Prod.fst).Perm (also.map Prod.fst) := by
    refine List.perm_iff_count.mpr fun k => ?_
    have counted := same k
    rw [represents.counted, represents'.counted] at counted
    rw [List.count_eq_countP, List.count_eq_countP, List.countP_map, List.countP_map]
    exact counted
  simpa using perm.length_eq

theorem Counts.total (represents : Counts members counts) :
    counts.total (fun _ => true) Counted.refCount = members.length := by
  have keys : (counts.rows.map Counted.key).Perm (members.map Prod.fst).dedup := by
    refine (List.perm_ext_iff_of_nodup (List.pairwise_map.mpr counts.rows_apart) (List.nodup_dedup _)).mpr fun k => ?_
    rw [List.mem_dedup]
    refine ⟨fun member => ?_, fun member => ?_⟩
    · obtain ⟨row, inside, rfl⟩ := List.mem_map.mp member
      obtain ⟨source, found, own⟩ := represents.member (Table.get?_of_mem inside)
      exact List.mem_map.mpr ⟨source, found, own⟩
    · obtain ⟨source, found, rfl⟩ := List.mem_map.mp member
      cases read : counts.get? source.1 with
      | none => exact absurd rfl (represents.absent read found)
      | some row => exact List.mem_map.mpr ⟨row, Table.get?_mem read, Table.get?_key read⟩
  have counted : counts.rows.map Counted.refCount = (counts.rows.map Counted.key).map fun k => (members.map Prod.fst).count k := by
    rw [List.map_map]
    refine List.map_congr_left fun row inside => ?_
    rw [represents.present (Table.get?_of_mem inside), Function.comp_apply, List.count_eq_countP, List.countP_map]
    rfl
  unfold Table.total
  rw [List.filter_true, counted, (keys.map _).sum_eq, List.sum_map_count_dedup_eq_length, List.length_map]

end RefCounts
