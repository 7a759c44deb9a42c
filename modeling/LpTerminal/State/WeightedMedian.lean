import LpTerminal.Lib.WeightedScan
import Mathlib.Tactic.FieldSimp

/-!
The price a token gets from its quotes, and how much depth a set of pools needs to move it out of the range of the
others. Prices and depths are exact; a quote's depth is at least `TUNE.minDepthUsd`, so it is positive.
-/

namespace LpTerminal.State

open WeightedScan

structure Quote where
  usd : ℚ
  depth : ℚ
  depth_pos : 0 < depth

/-- Without a quote the last line reads a property of `undefined`, which throws. -/
def weightedMedian (quotes : List Quote) : Option ℚ :=
  match quotes with
  | [quote] => some quote.usd
  | quotes =>
    let sorted := quotes.mergeSort fun a b => a.usd ≤ b.usd
    let half := total Quote.depth sorted / 2
    match reach Quote.depth half 0 sorted with
    | some q => some q.usd
    | none => sorted.getLast?.map Quote.usd

def Quote.scale (c : ℚ) (quote : Quote) : Quote := { quote with usd := c * quote.usd }

def InRange (price : ℚ) (quotes : List Quote) : Prop :=
  (∃ low ∈ quotes, low.usd ≤ price) ∧ ∃ high ∈ quotes, price ≤ high.usd

def Robust (quotes : List Quote) : Prop :=
  ∀ c ≠ 0, ∀ moved honest, quotes.Perm (moved ++ honest) → 2 * total Quote.depth moved ≤ total Quote.depth quotes →
    ∃ price, weightedMedian (quotes.map (Quote.scale c)) = some price ∧ InRange price (honest.map (Quote.scale c))

@[simp] theorem map_scale_one (quotes : List Quote) : quotes.map (Quote.scale 1) = quotes := by
  have same : Quote.scale 1 = id := by
    funext quote
    simp [Quote.scale]
  rw [same, List.map_id]

def EvenSplit (quotes : List Quote) : Prop :=
  ∃ cheap dear, quotes.Perm (cheap ++ dear) ∧ total Quote.depth cheap = total Quote.depth dear ∧
    ∀ a ∈ cheap, ∀ b ∈ dear, a.usd < b.usd

variable {quotes : List Quote}

theorem total_depth_pos (some : quotes ≠ []) : 0 < total Quote.depth quotes := by
  obtain ⟨first, rest, rfl⟩ := List.exists_cons_of_ne_nil some
  have others : 0 ≤ total Quote.depth rest := total_nonneg fun quote _ => quote.depth_pos.le
  rw [total_cons]
  linarith [first.depth_pos]

theorem weightedMedian_balance (some : quotes ≠ []) :
    ∃ price, weightedMedian quotes = Option.some price ∧
      total Quote.depth quotes ≤ 2 * total Quote.depth (quotes.filter fun quote => quote.usd ≤ price) ∧
      total Quote.depth quotes < 2 * total Quote.depth (quotes.filter fun quote => price ≤ quote.usd) := by
  have positive := total_depth_pos some
  match quotes, some with
  | [quote], _ =>
    have weight := quote.depth_pos
    refine ⟨quote.usd, rfl, ?_, ?_⟩
    · simp
      linarith
    · simp
      linarith
  | first :: second :: rest, _ =>
    set quotes := first :: second :: rest
    set sorted := quotes.mergeSort fun a b => a.usd ≤ b.usd with sorts
    have perm : sorted.Perm quotes := List.mergeSort_perm _ _
    have order : sorted.Pairwise fun a b => a.usd ≤ b.usd := by
      have trans : ∀ a b c : Quote, decide (a.usd ≤ b.usd) → decide (b.usd ≤ c.usd) → decide (a.usd ≤ c.usd) := by
        intro a b c
        simpa using le_trans
      have comparable : ∀ a b : Quote, decide (a.usd ≤ b.usd) || decide (b.usd ≤ a.usd) := by
        intro a b
        simpa using le_total a.usd b.usd
      simpa using List.pairwise_mergeSort trans comparable quotes
    have nonneg : ∀ quote ∈ sorted, 0 ≤ quote.depth := fun quote _ => quote.depth_pos.le
    have weight : total Quote.depth sorted = total Quote.depth quotes := total_perm perm
    have half : (0 : ℚ) < total Quote.depth sorted / 2 := by linarith
    obtain ⟨before, after, q, split, found, less, reached⟩ :=
      reach_split half (show _ ≤ 0 + total Quote.depth sorted by rw [zero_add]; linarith)
    have upTo := le_total_upTo order nonneg split
    have from' := total_from_le order nonneg split
    refine ⟨q.usd, ?_, ?_, ?_⟩
    · change (match reach Quote.depth (total Quote.depth sorted / 2) 0 sorted with
        | Option.some q => Option.some q.usd
        | none => sorted.getLast?.map Quote.usd) = _
      rw [found]
    · rw [← total_perm (perm.filter _)]
      linarith
    · rw [← total_perm (perm.filter _)]
      linarith

@[simp] theorem total_scale (c : ℚ) : total Quote.depth (quotes.map (Quote.scale c)) = total Quote.depth quotes := by
  simp [total, Quote.scale, Function.comp_def]

theorem scale_scale {c : ℚ} (nonzero : c ≠ 0) (quote : Quote) : (quote.scale c).scale c⁻¹ = quote := by
  simp [Quote.scale, nonzero]

theorem EvenSplit.scale {c : ℚ} (nonzero : c ≠ 0) (even : EvenSplit quotes) : EvenSplit (quotes.map (Quote.scale c)) := by
  obtain ⟨cheap, dear, perm, same, apart⟩ := even
  rcases lt_or_gt_of_ne nonzero with negative | positive
  · -- a reflection turns the cheaper part into the dearer one
    refine ⟨dear.map (Quote.scale c), cheap.map (Quote.scale c), ?_, by simp [same], ?_⟩
    · rw [← List.map_append]
      exact (perm.trans List.perm_append_comm).map _
    · simp only [List.forall_mem_map]
      intro b isDear a isCheap
      exact mul_lt_mul_of_neg_left (apart a isCheap b isDear) negative
  · refine ⟨cheap.map (Quote.scale c), dear.map (Quote.scale c), ?_, by simp [same], ?_⟩
    · rw [← List.map_append]
      exact perm.map _
    · simp only [List.forall_mem_map]
      intro a isCheap b isDear
      exact mul_lt_mul_of_pos_left (apart a isCheap b isDear) positive

theorem EvenSplit.of_scale {c : ℚ} (nonzero : c ≠ 0) (even : EvenSplit (quotes.map (Quote.scale c))) :
    EvenSplit quotes := by
  have back := even.scale (inv_ne_zero nonzero)
  simpa [scale_scale nonzero, Function.comp_def] using back

theorem evenSplit_of_half {price : ℚ}
    (half : 2 * total Quote.depth (quotes.filter fun quote => quote.usd ≤ price) = total Quote.depth quotes) :
    EvenSplit quotes := by
  have parts : total Quote.depth (quotes.filter fun quote => quote.usd ≤ price) +
      total Quote.depth (quotes.filter fun quote => !decide (quote.usd ≤ price)) = total Quote.depth quotes := total_filter _ _
  refine ⟨_, _, (List.filter_append_perm (fun quote : Quote => decide (quote.usd ≤ price)) quotes).symm, by linarith, ?_⟩
  intro a isCheap b isDear
  have low := (List.mem_filter.mp isCheap).2
  have high := (List.mem_filter.mp isDear).2
  simp only [decide_eq_true_eq, Bool.not_eq_true', decide_eq_false_iff_not, not_le] at low high
  exact low.trans_lt high

/-- Half of the depth is enough to pull the price down where it can be matched exactly, and only there. -/
theorem weightedMedian_robust (quotes : List Quote) : Robust quotes ↔ ¬ EvenSplit quotes := by
  constructor
  · rintro robust ⟨cheap, dear, perm, same, apart⟩
    have sum : total Quote.depth quotes = total Quote.depth cheap + total Quote.depth dear := by
      rw [total_perm perm, total_append]
    obtain ⟨price, median, ⟨low, isDear, below⟩, -⟩ := robust 1 one_ne_zero cheap dear perm (by linarith)
    rw [map_scale_one] at median isDear
    have some : quotes ≠ [] := by
      rintro rfl
      simp [weightedMedian, reach] at median
    obtain ⟨price', median', -, heavy⟩ := weightedMedian_balance some
    obtain rfl : price = price' := Option.some.inj (median.symm.trans median')
    -- the price is at least one of the dearer part, so all the depth from it on is there
    obtain ⟨quote, isCheap, dearer⟩ := exists_outside (fun quote _ => quote.depth_pos.le)
      (perm.trans List.perm_append_comm) (fun quote => decide (price ≤ quote.usd)) (by linarith)
    have less := apart quote isCheap low isDear
    have more : price ≤ quote.usd := by simpa using dearer
    linarith
  · intro uneven c nonzero moved honest perm small
    have some : quotes ≠ [] := by
      rintro rfl
      exact uneven ⟨[], [], List.Perm.refl _, rfl, by simp⟩
    have someScaled : quotes.map (Quote.scale c) ≠ [] := by simpa using some
    obtain ⟨price, median, upTo, onward⟩ := weightedMedian_balance someScaled
    have scaled : (quotes.map (Quote.scale c)).Perm (moved.map (Quote.scale c) ++ honest.map (Quote.scale c)) := by
      rw [← List.map_append]
      exact perm.map _
    have strict := upTo.lt_of_ne fun half => uneven (EvenSplit.of_scale nonzero (evenSplit_of_half half.symm))
    rw [total_scale] at onward strict
    obtain ⟨low, honestLow, below⟩ := exists_outside (fun quote _ => quote.depth_pos.le) scaled
      (fun quote => decide (quote.usd ≤ price)) (by rw [total_scale]; linarith)
    obtain ⟨high, honestHigh, above⟩ := exists_outside (fun quote _ => quote.depth_pos.le) scaled
      (fun quote => decide (price ≤ quote.usd)) (by rw [total_scale]; linarith)
    exact ⟨price, median, ⟨low, honestLow, by simpa using below⟩, ⟨high, honestHigh, by simpa using above⟩⟩

def honestQuote : Quote := ⟨2, 1000, by decide⟩

def manipulatedQuote : Quote := ⟨1, 1000, by decide⟩

/-- A pool with just half of the depth pulls the price from 2 to 1. -/
theorem half_moves_median : ¬ Robust [manipulatedQuote, honestQuote] := by
  intro robust
  have depths : 2 * total Quote.depth [manipulatedQuote] ≤ total Quote.depth [manipulatedQuote, honestQuote] := by
    norm_num [manipulatedQuote, honestQuote]
  obtain ⟨price, median, ⟨low, isHonest, below⟩, -⟩ :=
    robust 1 one_ne_zero [manipulatedQuote] [honestQuote] (List.Perm.refl _) depths
  rw [map_scale_one] at median isHonest
  have sorted : ([manipulatedQuote, honestQuote].mergeSort fun a b => decide (a.usd ≤ b.usd)) =
      [manipulatedQuote, honestQuote] := by
    apply List.mergeSort_of_pairwise
    norm_num [manipulatedQuote, honestQuote]
  have pulled : weightedMedian [manipulatedQuote, honestQuote] = some 1 := by
    simp only [weightedMedian, sorted]
    norm_num [reach, manipulatedQuote, honestQuote]
  obtain rfl : 1 = price := Option.some.inj (pulled.symm.trans median)
  obtain rfl : low = honestQuote := by simpa using isHonest
  norm_num [honestQuote] at below

/-- Quotes up to the price hold half of the depth, and quotes from it on more than half. -/
def Balances (quotes : List Quote) (price : ℚ) : Prop :=
  total Quote.depth quotes ≤ 2 * total Quote.depth (quotes.filter fun quote => quote.usd ≤ price) ∧
    total Quote.depth quotes < 2 * total Quote.depth (quotes.filter fun quote => price ≤ quote.usd)

theorem Balances.le {low high : ℚ} (below : Balances quotes low) (above : Balances quotes high) : high ≤ low := by
  by_contra less
  have within : quotes.filter (fun quote => high ≤ quote.usd) =
      (quotes.filter fun quote => !decide (quote.usd ≤ low)).filter fun quote => high ≤ quote.usd := by
    rw [List.filter_filter]
    exact List.filter_congr fun quote _ => by grind
  have parts : total Quote.depth (quotes.filter fun quote => quote.usd ≤ low) +
      total Quote.depth (quotes.filter fun quote => !decide (quote.usd ≤ low)) = total Quote.depth quotes := total_filter _ _
  have part : total Quote.depth (quotes.filter fun quote => high ≤ quote.usd) ≤
      total Quote.depth (quotes.filter fun quote => !decide (quote.usd ≤ low)) := by
    rw [within]
    exact total_filter_le (fun quote _ => quote.depth_pos.le) _
  linarith [below.1, above.2]

/-- The median is the one price that balances the quotes, in whatever order they come. -/
theorem weightedMedian_iff (quotes : List Quote) (price : ℚ) :
    weightedMedian quotes = some price ↔ quotes ≠ [] ∧ Balances quotes price := by
  constructor
  · intro median
    have quoted : quotes ≠ [] := by
      rintro rfl
      simp [weightedMedian, reach] at median
    obtain ⟨found, same, balances⟩ := weightedMedian_balance quoted
    obtain rfl := Option.some.inj (same.symm.trans median)
    exact ⟨quoted, balances⟩
  · rintro ⟨quoted, balances⟩
    obtain ⟨found, same, other⟩ := weightedMedian_balance quoted
    rw [same, le_antisymm (balances.le other) (Balances.le other balances)]

end LpTerminal.State
