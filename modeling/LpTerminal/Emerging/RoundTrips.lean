import LpTerminal.Lib.FirstPairing
import LpTerminal.Emerging.BehaviorMetrics
import Mathlib.Tactic.Linarith

/-!
The pairs that the loops of `roundTripShare` make, and when their share is the volume that they trade.
-/

namespace LpTerminal.Emerging.Behavior

section Entries

variable {trades : List BehaviorTrade}

theorem entry_eq_some {t : BehaviorTrade} {i : ℕ} {e : Entry} : entry t i = some e ↔
    t.actor = some e.actor ∧ 0 < t.volumeQuote ∧ e.i = i ∧ e.ts = t.ts ∧ e.direction = t.direction ∧ e.v = t.volumeQuote := by
  unfold entry
  cases t.actor with
  | none => simp
  | some actor =>
    obtain ⟨i', actor', ts, direction, v⟩ := e
    by_cases empty : t.volumeQuote ≤ 0
    · simp [empty, not_lt.mpr empty]
    · simp only [empty, if_false, Option.some_inj, Entry.mk.injEq]
      constructor
      · rintro ⟨rfl, rfl, rfl, rfl, rfl⟩
        exact ⟨rfl, by omega, rfl, rfl, rfl, rfl⟩
      · rintro ⟨rfl, -, rfl, rfl, rfl, rfl⟩
        exact ⟨rfl, rfl, rfl, rfl, rfl⟩

theorem mem_entries {e : Entry} : e ∈ entries trades ↔ ∃ t, trades[e.i]? = some t ∧ entry t e.i = some e := by
  rw [entries, List.mem_filterMap]
  constructor
  · rintro ⟨⟨t, i⟩, member, made⟩
    have own := (entry_eq_some.mp made).2.2.1
    subst own
    exact ⟨t, by simpa using List.mem_zipIdx_iff_getElem?.mp member, made⟩
  · rintro ⟨t, found, made⟩
    exact ⟨(t, e.i), List.mem_zipIdx_iff_getElem?.mpr found, made⟩

theorem entries_sorted : (entries trades).Pairwise fun x y => x.i < y.i := by
  rw [entries, List.pairwise_filterMap]
  have sorted : trades.zipIdx.Pairwise fun a b => a.2 < b.2 := by
    rw [← List.pairwise_map, List.zipIdx_map_snd]
    exact List.pairwise_lt_range'
  refine sorted.imp fun {a b} before x made y made' => ?_
  rw [(entry_eq_some.mp made).2.2.1, (entry_eq_some.mp made').2.2.1]
  exact before

theorem entry_inj {x y : Entry} (first : x ∈ entries trades) (second : y ∈ entries trades) (same : x.i = y.i) : x = y := by
  obtain ⟨t, found, made⟩ := mem_entries.mp first
  obtain ⟨t', found', made'⟩ := mem_entries.mp second
  rw [same, found', Option.some_inj] at found
  rw [← found, same, made'] at made
  exact (Option.some_inj.mp made).symm

end Entries

def Fits (x y : Entry) : Prop := x.actor = y.actor ∧ matched x y

section Loop

variable {trades : List BehaviorTrade} {done : Entry → Prop} {pairs : List (Entry × Entry)}

theorem paired_iff (within : ∀ p ∈ pairs, p.1 ∈ entries trades ∧ p.2 ∈ entries trades) {x : Entry} (inside : x ∈ entries trades) :
    paired pairs x ↔ ∃ p ∈ pairs, p.1 = x ∨ p.2 = x := by
  simp only [paired, List.any_eq_true, Bool.or_eq_true, decide_eq_true_eq]
  refine exists_congr fun p => and_congr_right fun member => ?_
  obtain ⟨first, second⟩ := within p member
  constructor
  · rintro (same | same)
    · exact .inl (entry_inj first inside same)
    · exact .inr (entry_inj second inside same)
  · rintro (rfl | rfl)
    · exact .inl rfl
    · exact .inr rfl

theorem pairList_paired (actor : Address) (rest : List Entry)
    (inv : FirstPaired Entry.i Fits (entries trades) done pairs)
    (own : ∀ x ∈ rest, x ∈ entries trades ∧ x.actor = actor) (sorted : rest.Pairwise fun x y => x.i < y.i)
    (before : ∀ w ∈ entries trades, done w → w.actor = actor → ∀ x ∈ rest, w.i < x.i)
    (cover : ∀ z ∈ entries trades, z.actor = actor → done z ∨ z ∈ rest) :
    FirstPaired Entry.i Fits (entries trades) (fun w => done w ∨ w ∈ rest) (pairList rest pairs) := by
  induction rest generalizing pairs done with
  | nil => exact inv.congr fun x _ => by simp
  | cons x rest ih =>
    obtain ⟨ahead, sorted⟩ := List.pairwise_cons.mp sorted
    obtain ⟨inside, mine⟩ := own x List.mem_cons_self
    have within : ∀ p ∈ pairs, p.1 ∈ entries trades ∧ p.2 ∈ entries trades := fun p member =>
      ⟨(inv.sound p member).1, (inv.sound p member).2.1⟩
    have grouped : ∀ a b, Fits a b → a.actor = b.actor := fun _ _ fit => fit.1
    have earlier : ∀ w ∈ entries trades, done w → w.actor = x.actor → w.i < x.i := fun w here turn same =>
      before w here turn (same.trans mine) x List.mem_cons_self
    have behind : ∀ z ∈ entries trades, x.i < z.i → Fits x z → z ∈ rest := fun z here later fit => by
      rcases cover z here (fit.1.symm.trans mine) with turn | left
      · have back := earlier z here turn fit.1.symm
        omega
      · rcases List.mem_cons.mp left with rfl | left
        · omega
        · exact left
    -- the turns after that of `x`
    have onward : ∀ {pairs' : List (Entry × Entry)}, FirstPaired Entry.i Fits (entries trades) (fun w => done w ∨ w = x) pairs' →
        FirstPaired Entry.i Fits (entries trades) (fun w => done w ∨ w ∈ x :: rest) (pairList rest pairs') := by
      intro pairs' inv'
      refine (ih inv' (fun y left => own y (List.mem_cons_of_mem x left)) sorted ?_ ?_).congr fun w _ => by
        rw [List.mem_cons, or_assoc]
      · rintro w here (turn | rfl) same y left
        · exact before w here turn same y (List.mem_cons_of_mem x left)
        · exact ahead y left
      · intro z here same
        rcases cover z here same with turn | left
        · exact .inl (.inl turn)
        · rcases List.mem_cons.mp left with rfl | left
          · exact .inl (.inr rfl)
          · exact .inr left
    unfold pairList
    split
    · rename_i taken
      exact onward (inv.skip grouped earlier ((paired_iff within inside).mp taken))
    · rename_i free
      rw [paired_iff within inside] at free
      split
      · rename_i none
        refine onward (inv.alone grouped earlier fun z here later fit => ?_)
        have passed := List.find?_eq_none.mp none z (behind z here later fit)
        rw [← paired_iff within here]
        simpa [fit.2] using passed
      · rename_i y found
        obtain ⟨test, front, back, split, passed⟩ := List.find?_eq_some_iff_append.mp found
        simp only [Bool.and_eq_true, Bool.not_eq_true'] at test
        have left : y ∈ rest := split ▸ List.mem_append_right front List.mem_cons_self
        obtain ⟨second, same⟩ := own y (List.mem_cons_of_mem x left)
        refine onward (inv.pair grouped earlier inside free second (ahead y left) ⟨mine.trans same.symm, test.2⟩ ?_ ?_)
        · rw [← paired_iff within second, test.1]
          exact Bool.false_ne_true
        · intro z here later near fit
          have place := behind z here later fit
          rw [split] at place sorted
          rw [← paired_iff within here]
          rcases List.mem_append.mp place with early | late
          · simpa [fit.2] using passed z early
          · rcases List.mem_cons.mp late with rfl | beyond
            · omega
            · have order := (List.pairwise_cons.mp (List.pairwise_append.mp sorted).2.1).1 z beyond
              omega

theorem fold_paired (seen : Address → Prop) {left : List Address} (distinct : left.Nodup) (unseen : ∀ actor ∈ left, ¬ seen actor)
    (inv : FirstPaired Entry.i Fits (entries trades) (fun w => seen w.actor) pairs) :
    FirstPaired Entry.i Fits (entries trades) (fun w => seen w.actor ∨ w.actor ∈ left)
      (left.foldl (fun pairs actor => pairList (byActor trades actor) pairs) pairs) := by
  induction left generalizing pairs seen with
  | nil => exact inv.congr fun x _ => by simp
  | cons actor left ih =>
    obtain ⟨absent, distinct⟩ := List.nodup_cons.mp distinct
    have turns := pairList_paired actor (byActor trades actor) inv
      (fun x member => by simpa [byActor] using member) (entries_sorted.filter _)
      (fun w _ turn same => absurd (same ▸ turn) (unseen actor List.mem_cons_self))
      (fun z here same => .inr (by simpa [byActor] using ⟨here, same⟩))
    have next := ih (fun other => seen other ∨ other = actor) distinct
      (fun other member => by
        rintro (old | rfl)
        · exact unseen other (List.mem_cons_of_mem actor member) old
        · exact absent member)
      (turns.congr fun x here => by simp [byActor, here])
    exact next.congr fun x _ => by simp [or_assoc]

theorem roundTrips_paired (trades : List BehaviorTrade) :
    FirstPaired Entry.i Fits (entries trades) (· ∈ entries trades) (roundTrips trades) := by
  have start : FirstPaired Entry.i Fits (entries trades) (fun _ => False) [] := FirstPaired.start fun _ _ => not_false
  have all := fold_paired (fun _ => False) (List.nodup_dedup ((entries trades).map Entry.actor)) (fun _ _ => not_false) start
  exact all.congr fun x here => by
    simp only [false_or, List.mem_dedup]
    exact ⟨fun _ => here, fun _ => List.mem_map_of_mem here⟩

end Loop

section Share

variable {trades : List BehaviorTrade} {hasDataGap : Bool}

def roundTripped (trades : List BehaviorTrade) : ℤ := ((roundTrips trades).map fun p => p.1.v + p.2.v).sum

theorem entry_positive {e : Entry} (inside : e ∈ entries trades) : 0 < e.v := by
  obtain ⟨t, -, made⟩ := mem_entries.mp inside
  obtain ⟨-, positive, -, -, -, same⟩ := entry_eq_some.mp made
  omega

theorem pairedVolume_le (trades : List BehaviorTrade) : 2 * pairedVolume trades ≤ roundTripped trades := by
  unfold pairedVolume roundTripped
  induction roundTrips trades with
  | nil => simp
  | cons p rest ih =>
    simp only [List.map_cons, List.sum_cons, pairVolume]
    split <;> omega

end Share

section Law

variable {trades : List BehaviorTrade} {hasDataGap : Bool}

def RoundTrip (x y : Entry) : Prop :=
  x.actor = y.actor ∧ y.direction ≠ x.direction ∧ |y.ts - x.ts| ≤ roundTripWindowSec ∧ withinTolerance x.v y.v

structure RoundTripLaw (trades : List BehaviorTrade) (hasDataGap : Bool) : Prop where
  paired : FirstPaired Entry.i RoundTrip (entries trades) (· ∈ entries trades) (roundTrips trades)
  /-- The share is the quotient of the two volumes. -/
  share : roundTripShare trades * totalVolume trades = roundTripped trades
  whole : trades ≠ [] → (∀ i < trades.length, ∃ p ∈ roundTrips trades, (p.1.i = i ∨ p.2.i = i) ∧ p.1.v = p.2.v) →
    roundTripShare trades = 1
  suspect : 0 < totalVolume trades → maxRoundTripShare * totalVolume trades < roundTripped trades →
    (assessBehavior trades hasDataGap).riskClass = .suspect

/-- Two trades with a positive volume, of one actor, in opposite directions and close in size, the second not more than 600000 seconds
after the first. -/
def Reversal (x y : BehaviorTrade) : Prop :=
  (∃ actor, x.actor = some actor ∧ y.actor = some actor) ∧ 0 < x.volumeQuote ∧ 0 < y.volumeQuote ∧ y.direction ≠ x.direction ∧
    y.ts - x.ts ≤ 600000 ∧ withinTolerance x.volumeQuote y.volumeQuote

theorem fits_iff {x y : Entry} : Fits x y ↔
    x.actor = y.actor ∧ y.direction ≠ x.direction ∧ y.ts - x.ts ≤ 600000 ∧ withinTolerance x.v y.v := by
  simp [Fits, matched, window, roundTripWindowSec, and_assoc]

theorem fits_of_roundTrip {x y : Entry} (trip : RoundTrip x y) : Fits x y := by
  obtain ⟨same, against, near, close⟩ := trip
  have bound := le_trans (le_abs_self _) near
  rw [roundTripWindowSec] at bound
  exact fits_iff.mpr ⟨same, against, by omega, close⟩

theorem reversal_iff : (trades.Pairwise fun x y => ¬ Reversal x y) ↔
    ∀ x ∈ entries trades, ∀ y ∈ entries trades, x.i < y.i → ¬ Fits x y := by
  rw [List.pairwise_iff_getElem]
  constructor
  · intro apart x first y second before fit
    obtain ⟨t, found, made⟩ := mem_entries.mp first
    obtain ⟨t', found', made'⟩ := mem_entries.mp second
    obtain ⟨actor, some, -, ts, direction, v⟩ := entry_eq_some.mp made
    obtain ⟨actor', some', -, ts', direction', v'⟩ := entry_eq_some.mp made'
    obtain ⟨here, rfl⟩ := List.getElem?_eq_some_iff.mp found
    obtain ⟨here', rfl⟩ := List.getElem?_eq_some_iff.mp found'
    obtain ⟨same, against, near, close⟩ := fits_iff.mp fit
    rw [ts, ts'] at near
    rw [direction, direction'] at against
    rw [v, v'] at close
    rw [← same] at actor'
    exact apart x.i y.i here here' before ⟨⟨x.actor, actor, actor'⟩, some, some', against, near, close⟩
  · rintro apart i j here here' before ⟨⟨actor, first, second⟩, some, some', against, near, close⟩
    let x : Entry := ⟨i, actor, trades[i].ts, trades[i].direction, trades[i].volumeQuote⟩
    let y : Entry := ⟨j, actor, trades[j].ts, trades[j].direction, trades[j].volumeQuote⟩
    have first' : x ∈ entries trades := mem_entries.mpr
      ⟨trades[i], List.getElem?_eq_getElem here, entry_eq_some.mpr ⟨first, some, rfl, rfl, rfl, rfl⟩⟩
    have second' : y ∈ entries trades := mem_entries.mpr
      ⟨trades[j], List.getElem?_eq_getElem here', entry_eq_some.mpr ⟨second, some', rfl, rfl, rfl, rfl⟩⟩
    have fit : Fits x y := fits_iff.mpr ⟨rfl, against, near, close⟩
    exact apart x first' y second' before fit

theorem pairedVolume_lt (made : roundTrips trades ≠ []) :
    0 < roundTripped trades ∧ pairedVolume trades < roundTripped trades := by
  obtain ⟨p, member⟩ := List.exists_mem_of_ne_nil _ made
  have inv := roundTrips_paired trades
  have legs : ∀ v ∈ (roundTrips trades).map fun p => p.1.v + p.2.v, 0 < v := fun v listed => by
    obtain ⟨q, inside, rfl⟩ := List.mem_map.mp listed
    have first := entry_positive (inv.sound q inside).1
    have second := entry_positive (inv.sound q inside).2.1
    omega
  have positive : 0 < roundTripped trades := List.sum_pos _ legs (by simpa using made)
  have half := pairedVolume_le trades
  exact ⟨positive, by omega⟩

/-- The share is that of the round trips if and only if there are none, even a thousand windows apart. -/
theorem roundTrips_exact (trades : List BehaviorTrade) (hasDataGap : Bool) :
    RoundTripLaw trades hasDataGap ↔ trades.Pairwise fun x y => ¬ Reversal x y := by
  have inv := roundTrips_paired trades
  rw [reversal_iff]
  constructor
  · intro law x first y second before fit
    have made : roundTrips trades ≠ [] := fun none => (none ▸ inv).none_fits first first second before fit
    obtain ⟨positive, less⟩ := pairedVolume_lt made
    have equal := law.share
    rw [roundTripShare, share] at equal
    split at equal
    · rw [zero_mul] at equal
      exact positive.ne (by exact_mod_cast equal)
    · rename_i some
      rw [div_mul_cancel₀ _ (by exact_mod_cast some)] at equal
      exact less.ne (by exact_mod_cast equal)
  · intro apart
    have none : roundTrips trades = [] := by
      refine List.eq_nil_iff_forall_not_mem.mpr fun p member => ?_
      obtain ⟨first, second, before, fit⟩ := inv.sound p member
      exact apart _ first _ second before fit
    have nothing : roundTripped trades = 0 := by simp [roundTripped, none]
    refine ⟨?_, ?_, ?_, ?_⟩
    · rw [none] at inv ⊢
      exact ⟨fun _ member => absurd member List.not_mem_nil, inv.turns, inv.once, fun x first _ z second before trip =>
        absurd (fits_of_roundTrip trip) (apart x first z second before)⟩
    · simp [roundTripShare, share, pairedVolume, nothing, none]
    · intro some matched
      obtain ⟨p, member, -⟩ := matched 0 (List.length_pos_iff.mpr some)
      rw [none] at member
      exact absurd member List.not_mem_nil
    · intro positive many
      have more : (0 : ℚ) < totalVolume trades := by exact_mod_cast positive
      rw [nothing, maxRoundTripShare, Int.cast_zero] at many
      linarith

def washTrades : List BehaviorTrade :=
  [1, 2, 3, 4].flatMap fun actor : ℕ =>
    [⟨100 * actor, 1000, .buy, some actor⟩, ⟨100 * actor + 60, 1000, .sell, some actor⟩]

/-- All volume is round-tripped, and the class is `low_observed`. -/
theorem wash_passes : ¬ RoundTripLaw washTrades false ∧ (assessBehavior washTrades false).riskClass = .lowObserved := by
  have passes : (assessBehavior washTrades false).riskClass = .lowObserved := by decide +kernel
  refine ⟨fun law => ?_, passes⟩
  have suspect := law.suspect (by decide +kernel) (by decide +kernel)
  rw [passes] at suspect
  cases suspect

end Law

end LpTerminal.Emerging.Behavior
