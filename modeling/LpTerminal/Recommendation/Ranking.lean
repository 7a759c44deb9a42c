import LpTerminal.Lib.BestByKey
import Mathlib.Algebra.Order.Field.Rat
import Mathlib.Data.List.Sort

/-!
The ranking of the scored items of the recommender, which keeps one item of each pool.
-/

namespace LpTerminal.Recommendation

open BestByKey

inductive ConfidenceLevel
  | high
  | medium
  | low
  deriving DecidableEq

/-- The fields of a recommendation item that its ranking reads or writes. -/
structure Item where
  rank : ℕ
  pool : String
  poolId : Option String
  gateReasons : List String
  confidence : ConfidenceLevel
  netUsd : ℚ
  riskAdjustedNetUsd : ℚ

def identityOf (pool : String) (poolId : Option String) : String := (poolId.getD pool).toLower

def Item.identity (item : Item) : String := identityOf item.pool item.poolId

def Item.poolKey (item : Item) : String := item.pool.toLower

/-- What the loop of `rankRecommendations` does not pass over. -/
def Item.Eligible (item : Item) : Prop :=
  ¬(item.gateReasons.length ≠ 0 ∨ item.confidence = .low ∨ item.netUsd ≤ 0 ∨ item.riskAdjustedNetUsd ≤ 0)

instance {item : Item} : Decidable item.Eligible := inferInstanceAs (Decidable (¬_))

structure Best where
  bestByPool : InsertionMap String Item
  bestEligibleByPool : InsertionMap String Item

/-- The body of the loop of `rankRecommendations`. -/
def consider (best : Best) (item : Item) : Best :=
  let bestByPool := visit Item.poolKey Item.riskAdjustedNetUsd best.bestByPool item
  if item.Eligible then
    ⟨bestByPool, visit Item.poolKey Item.riskAdjustedNetUsd best.bestEligibleByPool item⟩
  else ⟨bestByPool, best.bestEligibleByPool⟩

def numbered (sorted : List Item) : List Item := sorted.mapIdx fun index item => { item with rank := index + 1 }

def sortedByNet (items : List Item) : List Item :=
  items.mergeSort fun a b => b.riskAdjustedNetUsd ≤ a.riskAdjustedNetUsd

structure Ranking where
  observed : List Item
  items : List Item

def rankRecommendations (items : List Item) : Ranking :=
  let best := items.foldl consider ⟨InsertionMap.empty, InsertionMap.empty⟩
  { observed := numbered (sortedByNet best.bestByPool.values)
    items := numbered (sortedByNet best.bestEligibleByPool.values) }

/-- `ranked` has the best item of each market of `items`, in order and numbered from 1. -/
structure RanksEach (items ranked : List Item) : Prop where
  sorted : ranked.Pairwise fun a b => b.riskAdjustedNetUsd ≤ a.riskAdjustedNetUsd
  ranks : ranked.map Item.rank = List.range' 1 ranked.length
  one : (ranked.map Item.identity).Nodup
  taken : ∀ r ∈ ranked, ∃ item ∈ items, r = { item with rank := r.rank }
  best : ∀ r ∈ ranked, ∀ item ∈ items, item.identity = r.identity → item.riskAdjustedNetUsd ≤ r.riskAdjustedNetUsd
  complete : ∀ item ∈ items, ∃ r ∈ ranked, r.identity = item.identity

def LosesNoPool (items : List Item) : Prop :=
  RanksEach items (rankRecommendations items).observed ∧
    RanksEach (items.filter Item.Eligible) (rankRecommendations items).items

structure Candidate where
  pool : String
  poolId : Option String

/-- The items of the candidates: `scoreCandidate` copies the pool and the pool id of its candidate into each of its items. -/
def scored (scoreCandidate : Candidate → List Item) (candidates : List Candidate) : List Item :=
  candidates.flatMap fun candidate =>
    (scoreCandidate candidate).map fun item => { item with pool := candidate.pool, poolId := candidate.poolId }

structure ScoredItems where
  items : List Item
  onePool : ∀ a ∈ items, ∀ b ∈ items, a.identity = b.identity → a.poolKey = b.poolKey

def ScoredItems.ofCandidates (scoreCandidate : Candidate → List Item) (candidates : List Candidate)
    (apart : (candidates.map fun candidate => identityOf candidate.pool candidate.poolId).Nodup) : ScoredItems where
  items := scored scoreCandidate candidates
  onePool := by
    intro a memberA b memberB same
    obtain ⟨first, listed, made⟩ := List.mem_flatMap.mp memberA
    obtain ⟨second, listed', made'⟩ := List.mem_flatMap.mp memberB
    obtain ⟨_, -, rfl⟩ := List.mem_map.mp made
    obtain ⟨_, -, rfl⟩ := List.mem_map.mp made'
    obtain rfl : first = second := List.inj_on_of_nodup_map apart listed listed' same
    rfl

theorem foldl_consider (items : List Item) (best : Best) :
    items.foldl consider best =
      ⟨items.foldl (visit Item.poolKey Item.riskAdjustedNetUsd) best.bestByPool,
        (items.filter Item.Eligible).foldl (visit Item.poolKey Item.riskAdjustedNetUsd) best.bestEligibleByPool⟩ := by
  induction items generalizing best with
  | nil => rfl
  | cons item rest ih =>
    rw [List.foldl_cons, ih]
    by_cases eligible : item.Eligible
    · simp [consider, eligible]
    · simp [consider, eligible]

def ranked (items : List Item) : List Item :=
  numbered (sortedByNet (bests Item.poolKey Item.riskAdjustedNetUsd items).values)

theorem rankRecommendations_eq (items : List Item) :
    rankRecommendations items = ⟨ranked items, ranked (items.filter Item.Eligible)⟩ := by
  unfold rankRecommendations
  rw [foldl_consider]
  rfl

theorem mem_sortedByNet {items : List Item} {item : Item} : item ∈ sortedByNet items ↔ item ∈ items :=
  (List.mergeSort_perm items _).mem_iff

theorem sortedByNet_sorted (items : List Item) :
    (sortedByNet items).Pairwise fun a b => b.riskAdjustedNetUsd ≤ a.riskAdjustedNetUsd := by
  have trans : ∀ a b c : Item, decide (b.riskAdjustedNetUsd ≤ a.riskAdjustedNetUsd) →
      decide (c.riskAdjustedNetUsd ≤ b.riskAdjustedNetUsd) → decide (c.riskAdjustedNetUsd ≤ a.riskAdjustedNetUsd) := by
    intro a b c first second
    simp only [decide_eq_true_eq] at first second ⊢
    exact second.trans first
  have total : ∀ a b : Item, decide (b.riskAdjustedNetUsd ≤ a.riskAdjustedNetUsd) ||
      decide (a.riskAdjustedNetUsd ≤ b.riskAdjustedNetUsd) := by
    intro a b
    simpa using le_total b.riskAdjustedNetUsd a.riskAdjustedNetUsd
  simpa [sortedByNet] using List.pairwise_mergeSort trans total items

variable {sorted : List Item}

theorem numbered_map {α : Type*} {f : Item → α} (ignores : ∀ item rank, f { item with rank } = f item) :
    (numbered sorted).map f = sorted.map f := by
  apply List.ext_getElem
  · simp [numbered]
  · intro i _ _
    simp [numbered, ignores]

theorem numbered_ranks : (numbered sorted).map Item.rank = List.range' 1 (numbered sorted).length := by
  apply List.ext_getElem
  · simp [numbered]
  · intro i _ _
    simp [numbered, add_comm]

theorem mem_numbered {r : Item} (member : r ∈ numbered sorted) : ∃ item ∈ sorted, r = { item with rank := r.rank } := by
  obtain ⟨i, bound, rfl⟩ := List.getElem_of_mem member
  have short : i < sorted.length := by simpa [numbered] using bound
  exact ⟨sorted[i], List.getElem_mem short, by simp [numbered]⟩

theorem numbered_sorted (order : sorted.Pairwise fun a b => b.riskAdjustedNetUsd ≤ a.riskAdjustedNetUsd) :
    (numbered sorted).Pairwise fun a b => b.riskAdjustedNetUsd ≤ a.riskAdjustedNetUsd := by
  have nets : (numbered sorted).map Item.riskAdjustedNetUsd = sorted.map Item.riskAdjustedNetUsd :=
    numbered_map fun _ _ => rfl
  have order' : (sorted.map Item.riskAdjustedNetUsd).Pairwise fun x y => y ≤ x := List.pairwise_map.mpr order
  rw [← nets] at order'
  exact List.pairwise_map.mp order'

variable {items : List Item}

theorem ranked_taken {r : Item} (member : r ∈ ranked items) :
    ∃ item ∈ (bests Item.poolKey Item.riskAdjustedNetUsd items).values, r = { item with rank := r.rank } := by
  obtain ⟨item, inside, same⟩ := mem_numbered member
  exact ⟨item, mem_sortedByNet.mp inside, same⟩

theorem ranked_pools_apart : ((ranked items).map Item.poolKey).Nodup := by
  unfold ranked
  rw [numbered_map fun _ _ => rfl]
  exact (((List.mergeSort_perm _ _).map Item.poolKey).nodup_iff).mpr values_apart

theorem ranked_complete {item : Item} (inside : item ∈ items) : ∃ r ∈ ranked items, r.poolKey = item.poolKey := by
  obtain ⟨v, kept, same⟩ : ∃ v ∈ (bests Item.poolKey Item.riskAdjustedNetUsd items).values, v.poolKey = item.poolKey :=
    values_cover inside
  have pools : item.poolKey ∈ (ranked items).map Item.poolKey := by
    unfold ranked
    rw [numbered_map fun _ _ => rfl, ← same]
    exact List.mem_map_of_mem (mem_sortedByNet.mpr kept)
  obtain ⟨r, member, key⟩ := List.mem_map.mp pools
  exact ⟨r, member, key⟩

theorem ranked_ranksEach (alike : ∀ a ∈ items, ∀ b ∈ items, a.poolKey = b.poolKey ↔ a.identity = b.identity) :
    RanksEach items (ranked items) where
  sorted := numbered_sorted (sortedByNet_sorted _)
  ranks := numbered_ranks
  one := by
    apply List.Nodup.map_on _ (List.Nodup.of_map _ ranked_pools_apart)
    intro r memberR s memberS same
    obtain ⟨a, keptA, madeA⟩ := ranked_taken memberR
    obtain ⟨b, keptB, madeB⟩ := ranked_taken memberS
    apply List.inj_on_of_nodup_map ranked_pools_apart memberR memberS
    rw [madeA, madeB] at same ⊢
    exact (alike a (values_subset keptA) b (values_subset keptB)).mpr same
  taken := by
    intro r member
    obtain ⟨item, kept, made⟩ := ranked_taken member
    exact ⟨item, values_subset kept, made⟩
  best := by
    intro r member item inside same
    obtain ⟨held, kept, made⟩ := ranked_taken member
    rw [made] at same ⊢
    exact values_best kept inside ((alike item inside held (values_subset kept)).mpr same)
  complete := by
    intro item inside
    obtain ⟨r, member, same⟩ := ranked_complete inside
    obtain ⟨held, kept, made⟩ := ranked_taken member
    refine ⟨r, member, ?_⟩
    rw [made] at same ⊢
    exact (alike held (values_subset kept) item inside).mp same

theorem ranked_merges (each : RanksEach items (ranked items))
    (onePool : ∀ a ∈ items, ∀ b ∈ items, a.identity = b.identity → a.poolKey = b.poolKey)
    {a b : Item} (insideA : a ∈ items) (insideB : b ∈ items) (same : a.poolKey = b.poolKey) : a.identity = b.identity := by
  have placed : ∀ item ∈ items, ∃ r ∈ ranked items, r.identity = item.identity ∧ r.poolKey = item.poolKey := by
    intro item inside
    obtain ⟨r, member, market⟩ := each.complete item inside
    obtain ⟨held, listed, made⟩ := each.taken r member
    refine ⟨r, member, market, ?_⟩
    rw [made] at market ⊢
    exact onePool held listed item inside market
  obtain ⟨r, memberR, marketA, poolA⟩ := placed a insideA
  obtain ⟨s, memberS, marketB, poolB⟩ := placed b insideB
  obtain rfl : r = s := List.inj_on_of_nodup_map ranked_pools_apart memberR memberS (by rw [poolA, poolB, same])
  rw [← marketA, ← marketB]

/-- Every market is ranked if and only if no two of them share a pool address. -/
theorem ranking_loses_no_pool (scored : ScoredItems) :
    LosesNoPool scored.items ↔ ∀ a ∈ scored.items, ∀ b ∈ scored.items, a.poolKey = b.poolKey → a.identity = b.identity := by
  unfold LosesNoPool
  rw [rankRecommendations_eq]
  constructor
  · rintro ⟨each, -⟩ a insideA b insideB same
    exact ranked_merges each scored.onePool insideA insideB same
  · intro apart
    have alike : ∀ a ∈ scored.items, ∀ b ∈ scored.items, a.poolKey = b.poolKey ↔ a.identity = b.identity :=
      fun a insideA b insideB => ⟨apart a insideA b insideB, scored.onePool a insideA b insideB⟩
    refine ⟨ranked_ranksEach alike, ranked_ranksEach ?_⟩
    intro a insideA b insideB
    exact alike a (List.mem_of_mem_filter insideA) b (List.mem_of_mem_filter insideB)

def v4Item (poolId : String) (riskAdjustedNetUsd : ℚ) : Item :=
  { rank := 0, pool := "0x8366", poolId := some poolId, gateReasons := [], confidence := .high, netUsd := 1, riskAdjustedNetUsd }

/-- Of two v4 pools with their pool manager in common, one is dropped. -/
theorem manager_merges : ¬ LosesNoPool [v4Item "0xa1" 2, v4Item "0xb2" 1] := by
  rintro ⟨each, -⟩
  rw [rankRecommendations_eq] at each
  obtain ⟨r, memberR, marketA⟩ := each.complete (v4Item "0xa1" 2) (by simp)
  obtain ⟨s, memberS, marketB⟩ := each.complete (v4Item "0xb2" 1) (by simp)
  have pool : ∀ x ∈ ranked [v4Item "0xa1" 2, v4Item "0xb2" 1], x.poolKey = "0x8366".toLower := by
    intro x member
    obtain ⟨item, kept, made⟩ := ranked_taken member
    rw [made]
    rcases List.mem_pair.mp (values_subset kept) with rfl | rfl <;> rfl
  obtain rfl : r = s := List.inj_on_of_nodup_map ranked_pools_apart memberR memberS ((pool r memberR).trans (pool s memberS).symm)
  have letters := congrArg String.toList (marketA.symm.trans marketB)
  have lower : ∀ text : String, text.toLower = text.map Char.toLower := fun _ => rfl
  simp [v4Item, Item.identity, identityOf, lower] at letters

end LpTerminal.Recommendation
