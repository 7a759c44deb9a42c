import LpTerminal.Catalog.Rows
import LpTerminal.Lib.Leading
import Mathlib.Algebra.Order.Group.Nat

/-!
The pages of tokens that lack metadata, merged from two token columns: a page has the first missing tokens exactly where no
column was cut before one of them.
-/

namespace LpTerminal.Catalog

structure TokenMeta where
  address : Address
  metaOk : Bool

structure TokenCatalog where
  pools : Table Pool.address
  tokens : Table TokenMeta.address

def PoolProto.isCl : PoolProto → Bool
  | univ3 | pancakev3 => true
  | _ => false

/-- `t.address IS NULL OR t.meta_ok = 0`. -/
def lacksMeta (catalog : TokenCatalog) (token : Address) : Bool := ((catalog.tokens.get? token).all fun row => !row.metaOk)

def missingClMetaRows (column : Pool → Address) (catalog : TokenCatalog) (after : Option Address) : List Address :=
  ((catalog.pools.rows.filter fun pool => pool.proto.isCl).map column).filter fun token =>
    after.all (· < token) && lacksMeta catalog token

def missingClMetaSide (column : Pool → Address) (catalog : TokenCatalog) (after : Option Address) (limit : ℕ) : List Address :=
  ((missingClMetaRows column catalog after).mergeSort fun a b => a ≤ b).take limit

def nextOf : List Address → List Address → Option Address
  | [], [] => none
  | a :: _, [] => some a
  | [], b :: _ => some b
  | a :: _, b :: _ => some (if a ≤ b then a else b)

/-- One index, moved past `next`. -/
def advance (next : Address) : List Address → List Address
  | [] => []
  | a :: rest => if a = next then rest else a :: rest

def pushNew (merged : List Address) (next : Address) : List Address :=
  if merged.getLast? = some next then merged else merged ++ [next]

theorem advance_length_le (next : Address) (side : List Address) : (advance next side).length ≤ side.length := by
  cases side with
  | nil => simp [advance]
  | cons a rest =>
    simp only [advance]
    split <;> simp

theorem advance_shorter {side0 side1 : List Address} {next : Address} (found : nextOf side0 side1 = some next) :
    (advance next side0).length + (advance next side1).length < side0.length + side1.length := by
  have first := advance_length_le next side0
  have second := advance_length_le next side1
  cases side0 with
  | nil =>
    cases side1 with
    | nil => cases found
    | cons b rest =>
      obtain rfl := Option.some.inj found
      simp [advance]
  | cons a rest0 =>
    cases side1 with
    | nil =>
      obtain rfl := Option.some.inj found
      simp [advance]
    | cons b rest1 =>
      have least := Option.some.inj found
      split at least
      · subst least
        simp only [advance, if_true, List.length_cons] at first second ⊢
        omega
      · subst least
        simp only [advance, if_true, List.length_cons] at first second ⊢
        omega

def mergeSides (limit : ℕ) (merged side0 side1 : List Address) : List Address :=
  if merged.length < limit then
    match _found : nextOf side0 side1 with
    | none => merged
    | some next => mergeSides limit (pushNew merged next) (advance next side0) (advance next side1)
  else merged
termination_by side0.length + side1.length
decreasing_by exact advance_shorter _found

def missingClMetaTokensPage (catalog : TokenCatalog) (after : Option Address) (limit : ℕ) : List Address :=
  mergeSides limit [] (missingClMetaSide Pool.token0 catalog after limit) (missingClMetaSide Pool.token1 catalog after limit)

section Merge

variable {limit : ℕ} {merged side0 side1 : List Address} {next token : Address}

theorem advance_subset (member : token ∈ advance next side0) : token ∈ side0 := by
  cases side0 with
  | nil => exact member
  | cons a rest =>
    simp only [advance] at member
    split at member
    · exact List.mem_cons_of_mem a member
    · exact member

theorem mem_advance (member : token ∈ side0) : token = next ∨ token ∈ advance next side0 := by
  cases side0 with
  | nil => cases member
  | cons a rest =>
    simp only [advance]
    split
    · rename_i same
      subst same
      exact List.mem_cons.mp member
    · exact .inr member

theorem advance_sorted (sorted : side0.Pairwise (· ≤ ·)) : (advance next side0).Pairwise (· ≤ ·) := by
  cases side0 with
  | nil => exact sorted
  | cons a rest =>
    simp only [advance]
    split
    · exact (List.pairwise_cons.mp sorted).2
    · exact sorted

theorem nextOf_none (none : nextOf side0 side1 = none) : side0 = [] ∧ side1 = [] := by
  cases side0 <;> cases side1 <;> simp [nextOf] at none ⊢

theorem nextOf_least (sorted0 : side0.Pairwise (· ≤ ·)) (sorted1 : side1.Pairwise (· ≤ ·)) (found : nextOf side0 side1 = some next) :
    (next ∈ side0 ∨ next ∈ side1) ∧ (∀ x ∈ side0, next ≤ x) ∧ ∀ x ∈ side1, next ≤ x := by
  cases side0 with
  | nil =>
    cases side1 with
    | nil => cases found
    | cons b rest1 =>
      obtain rfl := Option.some.inj found
      simpa using (List.pairwise_cons.mp sorted1).1
  | cons a rest0 =>
    have first := (List.pairwise_cons.mp sorted0).1
    cases side1 with
    | nil =>
      obtain rfl := Option.some.inj found
      simpa using first
    | cons b rest1 =>
      have second := (List.pairwise_cons.mp sorted1).1
      have least := Option.some.inj found
      split at least
      · rename_i order
        subst least
        simpa [order] using ⟨first, fun x inside => order.trans (second x inside)⟩
      · rename_i order
        subst least
        have below : b ≤ a := (not_le.mp order).le
        simpa [below] using ⟨fun x inside => below.trans (first x inside), second⟩

theorem pushNew_ascending (ascending : merged.Pairwise (· < ·)) (most : ∀ m ∈ merged, m ≤ next) :
    (pushNew merged next).Pairwise (· < ·) := by
  unfold pushNew
  split
  · exact ascending
  · rename_i fresh
    refine List.pairwise_append.mpr ⟨ascending, List.pairwise_singleton .., fun m inside x last => ?_⟩
    obtain rfl := List.mem_singleton.mp last
    refine lt_of_le_of_ne (most m inside) fun same => fresh ?_
    -- the greatest of an ascending list is its last
    subst same
    obtain ⟨early, late, rfl⟩ := List.append_of_mem inside
    cases late with
    | nil => simp
    | cons y rest =>
      have above := (List.pairwise_cons.mp (List.pairwise_append.mp ascending).2.1).1 y List.mem_cons_self
      have bound := most y (by simp)
      exact absurd bound above.not_ge

theorem mem_pushNew : token ∈ pushNew merged next ↔ token ∈ merged ∨ token = next := by
  unfold pushNew
  split
  · rename_i last
    have inside := List.mem_of_getLast? last
    constructor
    · exact .inl
    · rintro (old | rfl)
      · exact old
      · exact inside
  · simp

theorem pushNew_length (room : merged.length < limit) : (pushNew merged next).length ≤ limit := by
  unfold pushNew
  split
  · exact room.le
  · rw [List.length_append]
    exact room

theorem mergeSides_leading (ascending : merged.Pairwise (· < ·)) (short : merged.length ≤ limit)
    (sorted0 : side0.Pairwise (· ≤ ·)) (sorted1 : side1.Pairwise (· ≤ ·)) (ahead0 : ∀ m ∈ merged, ∀ x ∈ side0, m ≤ x)
    (ahead1 : ∀ m ∈ merged, ∀ x ∈ side1, m ≤ x) :
    Leading limit (merged.toFinset ∪ side0.toFinset ∪ side1.toFinset) (mergeSides limit merged side0 side1) := by
  fun_induction mergeSides limit merged side0 side1 with
  | case1 merged side0 side1 room none =>
    obtain ⟨rfl, rfl⟩ := nextOf_none none
    exact ⟨ascending, by simp, short, fun x inside => .inl (by simpa using inside)⟩
  | case2 merged side0 side1 room next found ih =>
    obtain ⟨source, least0, least1⟩ := nextOf_least sorted0 sorted1 found
    have most : ∀ m ∈ merged, m ≤ next := fun m inside =>
      source.elim (ahead0 m inside next) (ahead1 m inside next)
    have ahead {side : List Address} (before : ∀ m ∈ merged, ∀ x ∈ side, m ≤ x) (least : ∀ x ∈ side, next ≤ x) :
        ∀ m ∈ pushNew merged next, ∀ x ∈ advance next side, m ≤ x := by
      intro m member x inside
      rcases mem_pushNew.mp member with old | rfl
      · exact before m old x (advance_subset inside)
      · exact least x (advance_subset inside)
    have done := ih (pushNew_ascending ascending most) (pushNew_length room) (advance_sorted sorted0) (advance_sorted sorted1)
      (ahead ahead0 least0) (ahead ahead1 least1)
    have same : (pushNew merged next).toFinset ∪ (advance next side0).toFinset ∪ (advance next side1).toFinset =
        merged.toFinset ∪ side0.toFinset ∪ side1.toFinset := by
      ext token
      simp only [Finset.mem_union, List.mem_toFinset, mem_pushNew]
      constructor
      · rintro (((old | rfl) | left) | right)
        · exact .inl (.inl old)
        · exact source.elim (fun left => .inl (.inr left)) .inr
        · exact .inl (.inr (advance_subset left))
        · exact .inr (advance_subset right)
      · rintro ((old | left) | right)
        · exact .inl (.inl (.inl old))
        · rcases mem_advance left with own | kept
          · exact .inl (.inl (.inr own))
          · exact .inl (.inr kept)
        · rcases mem_advance right with own | kept
          · exact .inl (.inl (.inr own))
          · exact .inr kept
    rw [← same]
    exact done
  | case3 merged side0 side1 full =>
    have length : merged.length = limit := by omega
    refine ⟨ascending, by simp +contextual, short, fun x inside => ?_⟩
    simp only [Finset.mem_union, List.mem_toFinset] at inside
    by_cases shown : x ∈ merged
    · exact .inl shown
    · refine .inr ⟨length, fun m member => lt_of_le_of_ne ?_ fun same => shown (same ▸ member)⟩
      rcases inside with (old | left) | right
      · exact absurd old shown
      · exact ahead0 m member x left
      · exact ahead1 m member x right

end Merge

variable {catalog : TokenCatalog} {after : Option Address} {limit : ℕ}

def missingClMetaTokens (catalog : TokenCatalog) (after : Option Address) : Finset Address :=
  (missingClMetaRows Pool.token0 catalog after).toFinset ∪ (missingClMetaRows Pool.token1 catalog after).toFinset

def Uncut (column : Pool → Address) (catalog : TokenCatalog) (after : Option Address) (limit : ℕ) (token : Address) : Prop :=
  token ∈ missingClMetaRows column catalog after ∧ ((missingClMetaRows column catalog after).filter (· < token)).length < limit

def Reaches (catalog : TokenCatalog) (after : Option Address) (limit : ℕ) : Prop :=
  ∀ token ∈ missingClMetaTokens catalog after, (Leading.before (missingClMetaTokens catalog after) token).card < limit →
    Uncut Pool.token0 catalog after limit token ∨ Uncut Pool.token1 catalog after limit token

instance (column : Pool → Address) (token : Address) : Decidable (Uncut column catalog after limit token) :=
  inferInstanceAs (Decidable (_ ∧ _))

instance : Decidable (Reaches catalog after limit) := inferInstanceAs (Decidable (∀ _ ∈ _, _ → _))

theorem side_sorted (column : Pool → Address) (catalog : TokenCatalog) (after : Option Address) (limit : ℕ) :
    (missingClMetaSide column catalog after limit).Pairwise (· ≤ ·) :=
  (List.pairwise_mergeSort' (· ≤ ·) _).sublist (List.take_sublist _ _)

theorem mem_side {column : Pool → Address} {token : Address} :
    token ∈ missingClMetaSide column catalog after limit ↔ Uncut column catalog after limit token := by
  have perm := List.mergeSort_perm (missingClMetaRows column catalog after) fun a b => a ≤ b
  have before := (perm.filter fun row => decide (row < token)).length_eq
  unfold missingClMetaSide Uncut
  rw [mem_take_of_sorted (List.pairwise_mergeSort' (· ≤ ·) _), perm.mem_iff, before]

theorem page_leading (catalog : TokenCatalog) (after : Option Address) (limit : ℕ) : Leading limit
    ((missingClMetaSide Pool.token0 catalog after limit).toFinset ∪ (missingClMetaSide Pool.token1 catalog after limit).toFinset)
    (missingClMetaTokensPage catalog after limit) := by
  have merged := mergeSides_leading List.Pairwise.nil (Nat.zero_le limit) (side_sorted Pool.token0 catalog after limit)
    (side_sorted Pool.token1 catalog after limit) (by simp) (by simp)
  simpa [missingClMetaTokensPage] using merged

theorem sides_subset :
    (missingClMetaSide Pool.token0 catalog after limit).toFinset ∪ (missingClMetaSide Pool.token1 catalog after limit).toFinset ⊆
      missingClMetaTokens catalog after := by
  intro token inside
  simp only [missingClMetaTokens, Finset.mem_union, List.mem_toFinset, mem_side] at inside ⊢
  exact inside.imp And.left And.left

theorem page_exact_iff :
    missingClMetaTokensPage catalog after limit = ((missingClMetaTokens catalog after).sort (· ≤ ·)).take limit ↔
      Reaches catalog after limit := by
  rw [← Leading.iff_take_sort, (page_leading catalog after limit).widen_iff sides_subset]
  simp only [Finset.mem_union, List.mem_toFinset, mem_side]
  rfl

theorem mem_page {token : Address} (shown : token ∈ missingClMetaTokensPage catalog after limit) :
    token ∈ missingClMetaTokens catalog after := sides_subset ((page_leading catalog after limit).inside token shown)

theorem none_missing (positive : 0 < limit) (empty : missingClMetaTokensPage catalog after limit = []) :
    missingClMetaTokens catalog after = ∅ := by
  have leading := page_leading catalog after limit
  rw [empty] at leading
  have none (column : Pool → Address) (small : ∀ x ∈ missingClMetaSide column catalog after limit, False) :
      missingClMetaRows column catalog after = [] := by
    have cut := List.eq_nil_iff_forall_not_mem.mpr small
    rcases List.take_eq_nil_iff.mp cut with zero | whole
    · omega
    · exact List.perm_nil.mp (whole ▸ (List.mergeSort_perm _ _).symm)
  have absent (x : Address) (inside : x ∈ (missingClMetaSide Pool.token0 catalog after limit).toFinset ∪
      (missingClMetaSide Pool.token1 catalog after limit).toFinset) : False := by
    rcases leading.first x inside with shown | ⟨full, -⟩
    · cases shown
    · simp only [List.length_nil] at full
      omega
  have first := none Pool.token0 fun x inside => absent x (by simp [inside])
  have second := none Pool.token1 fun x inside => absent x (by simp [inside])
  simp [missingClMetaTokens, first, second]

theorem tokens_after {last : Address} (shown : last ∈ missingClMetaTokens catalog after) :
    missingClMetaTokens catalog (some last) = (missingClMetaTokens catalog after).filter (last < ·) := by
  have past : ∀ k ∈ after, k < last := by
    simp only [missingClMetaTokens, missingClMetaRows, Finset.mem_union, List.mem_toFinset, List.mem_filter, Bool.and_eq_true,
      Option.all_eq_true, decide_eq_true_eq] at shown
    exact shown.elim (fun left => left.2.1) fun right => right.2.1
  have rows (column : Pool → Address) (token : Address) : token ∈ missingClMetaRows column catalog (some last) ↔
      token ∈ missingClMetaRows column catalog after ∧ last < token := by
    simp only [missingClMetaRows, List.mem_filter, Bool.and_eq_true, Option.all_eq_true, Option.mem_def, Option.some.injEq,
      forall_eq', decide_eq_true_eq] at past ⊢
    constructor
    · rintro ⟨listed, beyond, lacks⟩
      exact ⟨⟨listed, fun k cursor => (past k cursor).trans beyond, lacks⟩, beyond⟩
    · rintro ⟨⟨listed, -, lacks⟩, beyond⟩
      exact ⟨listed, beyond, lacks⟩
  ext token
  simp only [missingClMetaTokens, Finset.mem_union, List.mem_toFinset, Finset.mem_filter, rows, or_and_right]

def pagesFrom (catalog : TokenCatalog) (limit : ℕ) (after : Option Address) : List (Option Address × List Address) :=
  match _ends : (missingClMetaTokensPage catalog after limit).getLast? with
  | none => []
  | some last => (after, missingClMetaTokensPage catalog after limit) :: pagesFrom catalog limit (some last)
termination_by (missingClMetaTokens catalog after).card
decreasing_by
  have shown := mem_page (List.mem_of_getLast? _ends)
  rw [tokens_after shown]
  exact Finset.card_lt_card (Finset.filter_ssubset.mpr ⟨last, shown, lt_irrefl last⟩)

theorem pages_sort (positive : 0 < limit) (after : Option Address)
    (reaches : ∀ page ∈ pagesFrom catalog limit after, Reaches catalog page.1 limit) :
    (pagesFrom catalog limit after).flatMap Prod.snd = (missingClMetaTokens catalog after).sort (· ≤ ·) := by
  fun_induction pagesFrom catalog limit after with
  | case1 after ends =>
    rw [none_missing positive (List.getLast?_eq_none_iff.mp ends)]
    simp
  | case2 after last ends ih =>
    have whole := page_exact_iff.mpr (reaches _ List.mem_cons_self)
    have rest := ih fun page inside => reaches page (List.mem_cons_of_mem _ inside)
    have shown := mem_page (List.mem_of_getLast? ends)
    rw [List.flatMap_cons, rest, tokens_after shown]
    rw [whole] at ends
    dsimp only
    rw [← Leading.drop_sort ends, whole, List.take_append_drop]

theorem pages_at {page : Option Address × List Address} (inside : page ∈ pagesFrom catalog limit after) :
    page.2 = missingClMetaTokensPage catalog page.1 limit := by
  fun_induction pagesFrom catalog limit after with
  | case1 after ends => cases inside
  | case2 after last ends ih =>
    rcases List.mem_cons.mp inside with rfl | later
    · rfl
    · exact ih later

/-- A page is the first missing tokens if and only if it reaches them; and the pages of a walk are so, and together have every
missing token once in order, if and only if every page reaches its tokens. -/
theorem meta_pages_exact (catalog : TokenCatalog) (after : Option Address) (positive : 0 < limit) :
    (missingClMetaTokensPage catalog after limit = ((missingClMetaTokens catalog after).sort (· ≤ ·)).take limit ↔
      Reaches catalog after limit) ∧
    ((∀ page ∈ pagesFrom catalog limit after, page.2 = ((missingClMetaTokens catalog page.1).sort (· ≤ ·)).take limit) ∧
        (pagesFrom catalog limit after).flatMap Prod.snd = (missingClMetaTokens catalog after).sort (· ≤ ·) ↔
      ∀ page ∈ pagesFrom catalog limit after, Reaches catalog page.1 limit) := by
  refine ⟨page_exact_iff, ?_⟩
  constructor
  · rintro ⟨pages, -⟩ page inside
    exact page_exact_iff.mp ((pages_at inside).symm.trans (pages page inside))
  · intro reaches
    exact ⟨fun page inside => (pages_at inside).trans (page_exact_iff.mpr (reaches page inside)), pages_sort positive after reaches⟩

def hubCatalog : TokenCatalog where
  pools := {
    rows := [
      { address := 1, proto := .univ3, token0 := 5, token1 := 10, feePpm := 500, createdBlock := none, pairIndex := none
        snapshotGeneration := none, catalogSeq := none },
      { address := 2, proto := .pancakev3, token0 := 5, token1 := 11, feePpm := 500, createdBlock := none, pairIndex := none
        snapshotGeneration := none, catalogSeq := none },
      { address := 3, proto := .univ3, token0 := 6, token1 := 12, feePpm := 500, createdBlock := none, pairIndex := none
        snapshotGeneration := none, catalogSeq := none }]
    sorted := by decide }
  tokens := ⟨[], List.Pairwise.nil⟩

theorem meta_pages_exact_hub :
    missingClMetaTokensPage hubCatalog none 3 = ((missingClMetaTokens hubCatalog none).sort (· ≤ ·)).take 3 :=
  (meta_pages_exact hubCatalog none (by decide)).1.mpr (by decide)

/-- With a limit of two the rows of the token 5 fill one side, and the token 6 is passed over. -/
theorem hub_skips :
    ¬ ∀ (catalog : TokenCatalog) (after : Option Address) (limit : ℕ), 0 < limit →
      missingClMetaTokensPage catalog after limit = ((missingClMetaTokens catalog after).sort (· ≤ ·)).take limit := by
  intro whole
  have reaches : ¬ Reaches hubCatalog none 2 := by decide
  exact reaches (page_exact_iff.mp (whole hubCatalog none 2 (by decide)))

end LpTerminal.Catalog
