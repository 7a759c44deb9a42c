import LpTerminal.Lib.BestByKey
import LpTerminal.Volume.PairVolume
import Mathlib.Tactic.FieldSimp
import Mathlib.Tactic.Linarith

/-!
The handover of a pair's volume from one pool to another, as it is read off the shares of the family.
-/

namespace LpTerminal.Volume

open BestByKey

namespace MIGRATION_THRESHOLDS

def windowDays : ℕ := 7

def fromShareStart : NNRat := 1 / 2

def fromShareEnd : NNRat := 3 / 10

def toShareGain : Rat := 1 / 5

def pairTotalMaxDrop : Rat := 3 / 10

def minWindowDays : ℕ := 3

end MIGRATION_THRESHOLDS

open MIGRATION_THRESHOLDS hiding windowDays

variable {ι : Type*}

structure MigrationEvent (ι : Type*) where
  fromPool : ι
  toPool : ι
  fromShareStart : NNRat
  fromShareEnd : NNRat
  toShareStart : NNRat
  toShareEnd : NNRat
  windowDays : ℕ
  magnitudeUsd : Rat
  windowStartIndex : ℕ

/-- `at`: only a positive figure is read. -/
def reading (series : List (Option NNRat)) (i : ℕ) : Option NNRat := finitePos (series.getD i none)

/-- A pool's shares on the first and on the last day of the window. -/
structure Span (ι : Type*) where
  id : ι
  first : NNRat
  last : NNRat

def Span.gain (span : Span ι) : Rat := span.last - span.first

def spanOf (startIdx lastIdx : ℕ) (entry : ι × List (Option NNRat)) : Option (Span ι) :=
  match reading entry.2 startIdx, reading entry.2 lastIdx with
  | some first, some last => some ⟨entry.1, first, last⟩
  | _, _ => none

structure Ends (ι : Type*) where
  loser : Option (Span ι)
  winner : Option (Span ι)

def Span.Loses (span : Span ι) : Prop := fromShareStart ≤ span.first ∧ span.last ≤ fromShareEnd

instance {span : Span ι} : Decidable span.Loses := inferInstanceAs (Decidable (_ ∧ _))

def Span.Gains (span : Span ι) : Prop := toShareGain ≤ span.gain

instance {span : Span ι} : Decidable span.Gains := inferInstanceAs (Decidable (_ ≤ _))

def Ends.visit (startIdx lastIdx : ℕ) (ends : Ends ι) (entry : ι × List (Option NNRat)) : Ends ι :=
  match spanOf startIdx lastIdx entry with
  | none => ends
  | some span =>
    { loser := if span.Loses then keep Span.first ends.loser span else ends.loser
      winner := if span.Gains then keep Span.gain ends.winner span else ends.winner }

def magnitude (pairTotal series : List (Option NNRat)) (start : NNRat) (startIdx : ℕ) : Rat :=
  ((List.range (pairTotal.length - (startIdx + 1))).map fun k =>
    match reading pairTotal (startIdx + 1 + k), reading series (startIdx + 1 + k) with
    | some total, some share => max 0 ((share : Rat) - start) * total
    | _, _ => 0).sum

def detectMigrationEvent [DecidableEq ι] (pairTotal : List (Option NNRat)) (shares : List (ι × List (Option NNRat))) : Option (MigrationEvent ι) :=
  let n := pairTotal.length
  let startIdx := n - MIGRATION_THRESHOLDS.windowDays
  if shares.length < 2 ∨ n < minWindowDays ∨ n - startIdx < minWindowDays then none
  else
    match reading pairTotal startIdx, reading pairTotal (n - 1) with
    | some startTotal, some endTotal =>
      if ((endTotal : Rat) - startTotal) / startTotal < -pairTotalMaxDrop then none
      else
        let ends := shares.foldl (Ends.visit startIdx (n - 1)) ⟨none, none⟩
        match ends.loser, ends.winner with
        | some loser, some winner =>
          if loser.id = winner.id then none
          else
            some
              { fromPool := loser.id
                toPool := winner.id
                fromShareStart := loser.first
                fromShareEnd := loser.last
                toShareStart := winner.first
                toShareEnd := winner.last
                windowDays := n - startIdx
                magnitudeUsd := magnitude pairTotal ((shares.lookup winner.id).getD []) winner.first startIdx
                windowStartIndex := startIdx }
        | _, _ => none
    | _, _ => none

structure VolumeFamily (ι : Type*) where
  members : List (ι × List (Option NNRat))
  apart : (members.map Prod.fst).Nodup

namespace VolumeFamily

variable (family : VolumeFamily ι)

def vols : List (List (Option NNRat)) := family.members.map Prod.snd

def migration [DecidableEq ι] : Option (MigrationEvent ι) :=
  detectMigrationEvent (pairTotals family.vols) ((family.members.map Prod.fst).zip (pairShares family.vols))

def days : ℕ := longest family.vols

def opening : ℕ := family.days - MIGRATION_THRESHOLDS.windowDays

def closing : ℕ := family.days - 1

def total (i : ℕ) : NNRat := (reported family.vols i).sum

def share (series : List (Option NNRat)) (i : ℕ) : NNRat := (series.getD i none).getD 0 / family.total i

def spanAt (entry : ι × List (Option NNRat)) : Span ι :=
  ⟨entry.1, family.share entry.2 family.opening, family.share entry.2 family.closing⟩

/-- A large holder lost its part, another pool gained, and the pair did not retreat. -/
structure Migrates : Prop where
  long : minWindowDays ≤ family.days
  held : (1 - pairTotalMaxDrop) * family.total family.opening ≤ family.total family.closing
  loser : ∃ entry ∈ family.members, (family.spanAt entry).Loses
  winner : ∃ entry ∈ family.members, (family.spanAt entry).Gains

structure MainLoser (entry : ι × List (Option NNRat)) : Prop where
  member : entry ∈ family.members
  loses : (family.spanAt entry).Loses
  largest : ∀ other ∈ family.members, (family.spanAt other).Loses → (family.spanAt other).first ≤ (family.spanAt entry).first

structure MainWinner (entry : ι × List (Option NNRat)) : Prop where
  member : entry ∈ family.members
  gains : (family.spanAt entry).Gains
  largest : ∀ other ∈ family.members, (family.spanAt other).Gains → (family.spanAt other).gain ≤ (family.spanAt entry).gain

def DetectsExactly [DecidableEq ι] : Prop :=
  (family.migration.isSome ↔ family.Migrates) ∧
    ∀ event ∈ family.migration, ∃ loser winner, family.MainLoser loser ∧ family.MainWinner winner ∧
      event.fromPool = loser.1 ∧ event.toPool = winner.1

def HandsOverAlive : Prop :=
  family.Migrates →
    (∃ loser, family.MainLoser loser ∧ 0 < (family.spanAt loser).last) ∧
    ∃ winner, family.MainWinner winner ∧ 0 < (family.spanAt winner).first

end VolumeFamily

@[simp] theorem finitePos_none : finitePos none = none := rfl

theorem finitePos_some (vol : NNRat) : finitePos (some vol) = if 0 < vol then some vol else none := by
  simp [finitePos, Option.filter]

@[simp] theorem finitePos_zero : finitePos (some 0) = none := rfl

variable {family : VolumeFamily ι} {i : ℕ}

theorem reading_pairTotals (inside : i < family.days) : reading (pairTotals family.vols) i = finitePos (some (family.total i)) := by
  have read : (pairTotals family.vols).getD i none =
      if reported family.vols i = [] then none else some (reported family.vols i).sum := by
    unfold VolumeFamily.days at inside
    simp [pairTotals, List.getD_eq_getElem?_getD, inside]
  unfold reading
  rw [read]
  by_cases silent : reported family.vols i = []
  · simp [silent, VolumeFamily.total]
  · rw [if_neg silent]
    rfl

theorem reading_sharesOf (series : List (Option NNRat)) (inside : i < family.days) :
    reading (sharesOf family.vols series) i = finitePos (some (family.share series i)) := by
  have read : (sharesOf family.vols series).getD i none =
      if 0 < family.total i then (finitePos (series.getD i none)).map (· / family.total i) else none := by
    unfold VolumeFamily.days at inside
    simp [sharesOf, List.getD_eq_getElem?_getD, inside, VolumeFamily.total]
  unfold reading
  rw [read]
  unfold VolumeFamily.share
  by_cases traded : 0 < family.total i
  · rw [if_pos traded]
    cases reported : series.getD i none with
    | none => simp
    | some vol =>
      by_cases positive : 0 < vol
      · simp [finitePos_some, positive]
      · have zero : vol = 0 := le_antisymm (not_lt.mp positive) zero_le
        simp [zero]
  · have silent : family.total i = 0 := le_antisymm (not_lt.mp traded) zero_le
    simp [silent]

theorem days_pairTotals : (pairTotals family.vols).length = family.days := by
  simp [pairTotals, VolumeFamily.days]

theorem named_shares : (family.members.map Prod.fst).zip (pairShares family.vols) =
    family.members.map fun entry => (entry.1, sharesOf family.vols entry.2) := by
  unfold pairShares VolumeFamily.vols
  rw [List.map_map, List.zip_map']
  rfl

theorem foldl_visit (startIdx lastIdx : ℕ) (shares : List (ι × List (Option NNRat))) (ends : Ends ι) :
    shares.foldl (Ends.visit startIdx lastIdx) ends =
      { loser := ((shares.filterMap (spanOf startIdx lastIdx)).filter fun span => span.Loses).foldl (keep Span.first) ends.loser
        winner := ((shares.filterMap (spanOf startIdx lastIdx)).filter fun span => span.Gains).foldl (keep Span.gain) ends.winner } := by
  induction shares generalizing ends with
  | nil => rfl
  | cons entry rest ih =>
    rw [List.foldl_cons, ih]
    cases read : spanOf startIdx lastIdx entry with
    | none => simp [Ends.visit, read]
    | some span =>
      by_cases loses : span.Loses <;> by_cases gains : span.Gains <;> simp [Ends.visit, read, loses, gains]

namespace VolumeFamily

variable (family)

def active : List (Span ι) :=
  (family.members.map family.spanAt).filter fun span => 0 < span.first ∧ 0 < span.last

end VolumeFamily

theorem opening_lt (long : minWindowDays ≤ family.days) : family.opening < family.days := by
  have window : 0 < MIGRATION_THRESHOLDS.windowDays := by decide
  have some : 0 < minWindowDays := by decide
  unfold VolumeFamily.opening
  omega

theorem closing_lt (long : minWindowDays ≤ family.days) : family.closing < family.days := by
  have some : 0 < minWindowDays := by decide
  unfold VolumeFamily.closing
  omega

theorem spans_eq (long : minWindowDays ≤ family.days) :
    ((family.members.map fun entry => (entry.1, sharesOf family.vols entry.2)).filterMap
      (spanOf family.opening family.closing)) = family.active := by
  have opens := opening_lt long
  have closes := closing_lt long
  have each : ∀ entry, spanOf family.opening family.closing (entry.1, sharesOf family.vols entry.2) =
      if 0 < (family.spanAt entry).first ∧ 0 < (family.spanAt entry).last then some (family.spanAt entry) else none := by
    intro entry
    simp only [spanOf, reading_sharesOf entry.2 opens, reading_sharesOf entry.2 closes, finitePos_some]
    by_cases first : 0 < family.share entry.2 family.opening <;> by_cases last : 0 < family.share entry.2 family.closing <;>
      simp [VolumeFamily.spanAt, first, last]
  unfold VolumeFamily.active
  induction family.members with
  | nil => rfl
  | cons entry rest ih =>
    rw [List.map_cons, List.map_cons, List.filterMap_cons, each, ih, List.filter_cons]
    by_cases trades : 0 < (family.spanAt entry).first ∧ 0 < (family.spanAt entry).last <;> simp [trades]

theorem held_iff {start final : NNRat} (traded : 0 < start) :
    ¬((final : Rat) - start) / start < -pairTotalMaxDrop ↔ (1 - pairTotalMaxDrop) * start ≤ final := by
  have positive : (0 : Rat) < start := by exact_mod_cast traded
  rw [not_lt, le_div_iff₀ positive]
  constructor <;> intro bound <;> linarith

variable [DecidableEq ι]

theorem migration_some {event : MigrationEvent ι} (found : family.migration = some event) :
    minWindowDays ≤ family.days ∧ (1 - pairTotalMaxDrop) * family.total family.opening ≤ family.total family.closing ∧
      ∃ loser winner, best Span.first (family.active.filter fun span => span.Loses) = some loser ∧
        best Span.gain (family.active.filter fun span => span.Gains) = some winner ∧
        event.fromPool = loser.id ∧ event.toPool = winner.id := by
  unfold VolumeFamily.migration detectMigrationEvent at found
  rw [named_shares, days_pairTotals] at found
  dsimp only at found
  split at found
  · cases found
  · rename_i open'
    have long : minWindowDays ≤ family.days := by omega
    change (match reading (pairTotals family.vols) family.opening, reading (pairTotals family.vols) family.closing with
      | some startTotal, some endTotal => _
      | _, _ => none) = some event at found
    rw [reading_pairTotals (opening_lt long), reading_pairTotals (closing_lt long), finitePos_some, finitePos_some] at found
    by_cases opens : 0 < family.total family.opening
    · by_cases closes : 0 < family.total family.closing
      · rw [if_pos opens, if_pos closes] at found
        dsimp only at found
        split at found
        · cases found
        · rename_i kept
          refine ⟨long, (held_iff opens).mp kept, ?_⟩
          rw [foldl_visit] at found
          dsimp only at found
          rw [show family.days - MIGRATION_THRESHOLDS.windowDays = family.opening from rfl,
            show family.days - 1 = family.closing from rfl, spans_eq long] at found
          split at found
          · rename_i loser winner lost won
            split at found
            · cases found
            · cases found
              exact ⟨loser, winner, lost, won, rfl, rfl⟩
          · cases found
      · rw [if_neg closes] at found
        rw [if_pos opens] at found
        cases found
    · rw [if_neg opens] at found
      cases found

theorem migration_isSome {loser winner : Span ι} (several : 2 ≤ family.members.length) (long : minWindowDays ≤ family.days)
    (opens : 0 < family.total family.opening) (closes : 0 < family.total family.closing)
    (held : (1 - pairTotalMaxDrop) * family.total family.opening ≤ family.total family.closing)
    (lost : best Span.first (family.active.filter fun span => span.Loses) = some loser)
    (won : best Span.gain (family.active.filter fun span => span.Gains) = some winner) (apart : loser.id ≠ winner.id) :
    family.migration.isSome := by
  have window : minWindowDays ≤ family.days - family.opening := by
    have few : minWindowDays ≤ MIGRATION_THRESHOLDS.windowDays := by decide
    unfold VolumeFamily.opening
    omega
  have kept : ¬((family.total family.closing : Rat) - family.total family.opening) / family.total family.opening <
      -pairTotalMaxDrop := (held_iff opens).mpr held
  unfold VolumeFamily.migration detectMigrationEvent
  rw [named_shares, days_pairTotals, List.length_map]
  dsimp only
  rw [show family.days - MIGRATION_THRESHOLDS.windowDays = family.opening from rfl,
    show family.days - 1 = family.closing from rfl, if_neg (by omega), reading_pairTotals (opening_lt long),
    reading_pairTotals (closing_lt long), finitePos_some, finitePos_some, if_pos opens, if_pos closes]
  dsimp only
  rw [if_neg kept, foldl_visit, spans_eq long]
  unfold best at lost won
  dsimp only
  rw [lost, won]
  dsimp only
  rw [if_neg apart]
  rfl

omit [DecidableEq ι] in
theorem mem_active {span : Span ι} :
    span ∈ family.active ↔ ∃ entry ∈ family.members, family.spanAt entry = span ∧ 0 < span.first ∧ 0 < span.last := by
  unfold VolumeFamily.active
  simp only [List.mem_filter, List.mem_map, decide_eq_true_eq]
  constructor
  · rintro ⟨⟨entry, member, rfl⟩, trades⟩
    exact ⟨entry, member, rfl, trades⟩
  · rintro ⟨entry, member, rfl, trades⟩
    exact ⟨⟨entry, member, rfl⟩, trades⟩

omit [DecidableEq ι] in
theorem Span.Loses.first_pos {span : Span ι} (loses : span.Loses) : 0 < span.first := by
  have half : 0 < fromShareStart := by norm_num [fromShareStart]
  exact half.trans_le loses.1

omit [DecidableEq ι] in
theorem Span.Gains.last_pos {span : Span ι} (gains : span.Gains) : 0 < span.last := by
  have fifth : 0 < toShareGain := by norm_num [toShareGain]
  have some := fifth.trans_le gains
  unfold Span.gain at some
  have start : (0 : Rat) ≤ span.first := by positivity
  have positive : (0 : Rat) < span.last := by linarith
  exact_mod_cast positive

omit [DecidableEq ι] in
theorem Span.Loses.not_gains {span : Span ι} (loses : span.Loses) : ¬ span.Gains := by
  intro gains
  have start : ((1 / 2 : NNRat) : Rat) ≤ span.first := by exact_mod_cast loses.1
  have final : (span.last : Rat) ≤ ((3 / 10 : NNRat) : Rat) := by exact_mod_cast loses.2
  unfold Span.Gains Span.gain toShareGain at gains
  push_cast at start final
  linarith

omit [DecidableEq ι] in
theorem share_pos {series : List (Option NNRat)} {i : ℕ} (positive : 0 < family.share series i) : 0 < family.total i := by
  by_contra silent
  have none : family.total i = 0 := le_antisymm (not_lt.mp silent) zero_le
  simp [VolumeFamily.share, none] at positive

omit [DecidableEq ι] in
theorem mem_losers {span : Span ι} :
    span ∈ family.active.filter (fun span => span.Loses) ↔
      ∃ entry ∈ family.members, family.spanAt entry = span ∧ span.Loses ∧ 0 < span.last := by
  simp only [List.mem_filter, mem_active, decide_eq_true_eq]
  constructor
  · rintro ⟨⟨entry, member, same, -, last⟩, loses⟩
    exact ⟨entry, member, same, loses, last⟩
  · rintro ⟨entry, member, same, loses, last⟩
    exact ⟨⟨entry, member, same, loses.first_pos, last⟩, loses⟩

omit [DecidableEq ι] in
theorem mem_winners {span : Span ι} :
    span ∈ family.active.filter (fun span => span.Gains) ↔
      ∃ entry ∈ family.members, family.spanAt entry = span ∧ span.Gains ∧ 0 < span.first := by
  simp only [List.mem_filter, mem_active, decide_eq_true_eq]
  constructor
  · rintro ⟨⟨entry, member, same, first, -⟩, gains⟩
    exact ⟨entry, member, same, gains, first⟩
  · rintro ⟨entry, member, same, gains, first⟩
    exact ⟨⟨entry, member, same, first, gains.last_pos⟩, gains⟩

omit [DecidableEq ι] in
theorem spanAt_inj {a b : ι × List (Option NNRat)} (memberA : a ∈ family.members) (memberB : b ∈ family.members)
    (same : (family.spanAt a).id = (family.spanAt b).id) : a = b :=
  List.inj_on_of_nodup_map family.apart memberA memberB same

theorem migration_reports {event : MigrationEvent ι} (found : family.migration = some event) :
    family.Migrates ∧ ∃ loser ∈ family.members, ∃ winner ∈ family.members,
      event.fromPool = loser.1 ∧ event.toPool = winner.1 ∧
      ((family.spanAt loser).Loses ∧ 0 < (family.spanAt loser).last ∧ ∀ other ∈ family.members, (family.spanAt other).Loses →
        0 < (family.spanAt other).last → (family.spanAt other).first ≤ (family.spanAt loser).first) ∧
      ((family.spanAt winner).Gains ∧ 0 < (family.spanAt winner).first ∧ ∀ other ∈ family.members, (family.spanAt other).Gains →
        0 < (family.spanAt other).first → (family.spanAt other).gain ≤ (family.spanAt winner).gain) := by
  obtain ⟨long, held, _, _, lost, won, source, target⟩ := migration_some found
  obtain ⟨loser, memberL, rfl, loses, last⟩ := mem_losers.mp (best_mem lost)
  obtain ⟨winner, memberW, rfl, gains, first⟩ := mem_winners.mp (best_mem won)
  refine ⟨⟨long, held, ⟨loser, memberL, loses⟩, ⟨winner, memberW, gains⟩⟩, loser, memberL, winner, memberW, source, target,
    ⟨loses, last, ?_⟩, ⟨gains, first, ?_⟩⟩
  · intro other member loses' last'
    exact best_le lost (mem_losers.mpr ⟨other, member, rfl, loses', last'⟩)
  · intro other member gains' first'
    exact best_le won (mem_winners.mpr ⟨other, member, rfl, gains', first'⟩)

theorem migration_reported (migrates : family.Migrates) {loser winner : ι × List (Option NNRat)}
    (memberL : loser ∈ family.members) (loses : (family.spanAt loser).Loses) (last : 0 < (family.spanAt loser).last)
    (memberW : winner ∈ family.members) (gains : (family.spanAt winner).Gains) (first : 0 < (family.spanAt winner).first) :
    family.migration.isSome := by
  have losers := mem_losers.mpr ⟨loser, memberL, rfl, loses, last⟩
  have winners := mem_winners.mpr ⟨winner, memberW, rfl, gains, first⟩
  obtain ⟨from', lost⟩ : ∃ span, best Span.first (family.active.filter fun span => span.Loses) = some span :=
    Option.ne_none_iff_exists'.mp fun none => List.ne_nil_of_mem losers (best_eq_none.mp none)
  obtain ⟨to', won⟩ : ∃ span, best Span.gain (family.active.filter fun span => span.Gains) = some span :=
    Option.ne_none_iff_exists'.mp fun none => List.ne_nil_of_mem winners (best_eq_none.mp none)
  obtain ⟨a, memberA, rfl, losesA, -⟩ := mem_losers.mp (best_mem lost)
  obtain ⟨b, memberB, rfl, gainsB, -⟩ := mem_winners.mp (best_mem won)
  have apart : (family.spanAt a).id ≠ (family.spanAt b).id := fun same => by
    obtain rfl := spanAt_inj memberA memberB same
    exact losesA.not_gains gainsB
  -- one pool cannot both lose and gain, so that there are two
  have several : 2 ≤ family.members.length := by
    by_contra few
    obtain ⟨only, members⟩ : ∃ only, family.members = [only] :=
      List.length_eq_one_iff.mp (le_antisymm (by omega) (List.length_pos_of_mem memberA))
    rw [members, List.mem_singleton] at memberA memberB
    exact apart (by rw [memberA, memberB])
  exact migration_isSome several migrates.long (share_pos loses.first_pos) (share_pos gains.last_pos) migrates.held lost won apart

/-- Handovers are detected as they are if and only if a main loser and a main winner of each traded on both days. -/
theorem migration_exact (family : VolumeFamily ι) : family.DetectsExactly ↔ family.HandsOverAlive := by
  constructor
  · rintro ⟨detects, names⟩ migrates
    obtain ⟨event, found⟩ := Option.isSome_iff_exists.mp (detects.mpr migrates)
    obtain ⟨-, loser, memberL, winner, memberW, source, target, ⟨-, last, -⟩, ⟨-, first, -⟩⟩ := migration_reports found
    obtain ⟨main, main', mainLoser, mainWinner, source', target'⟩ := names event found
    obtain rfl := spanAt_inj memberL mainLoser.member (source.symm.trans source')
    obtain rfl := spanAt_inj memberW mainWinner.member (target.symm.trans target')
    exact ⟨⟨loser, mainLoser, last⟩, ⟨winner, mainWinner, first⟩⟩
  · intro alive
    refine ⟨⟨fun some => ?_, fun migrates => ?_⟩, fun event found => ?_⟩
    · obtain ⟨event, found⟩ := Option.isSome_iff_exists.mp some
      exact (migration_reports found).1
    · obtain ⟨⟨loser, mainLoser, last⟩, ⟨winner, mainWinner, first⟩⟩ := alive migrates
      exact migration_reported migrates mainLoser.member mainLoser.loses last mainWinner.member mainWinner.gains first
    · obtain ⟨migrates, loser, memberL, winner, memberW, source, target, ⟨loses, -, most⟩, ⟨gains, -, most'⟩⟩ :=
        migration_reports found
      obtain ⟨⟨main, mainLoser, last⟩, ⟨main', mainWinner, first⟩⟩ := alive migrates
      refine ⟨loser, winner, ⟨memberL, loses, ?_⟩, ⟨memberW, gains, ?_⟩, source, target⟩
      · intro other member loses'
        exact (mainLoser.largest other member loses').trans (most main mainLoser.member mainLoser.loses last)
      · intro other member gains'
        exact (mainWinner.largest other member gains').trans (most' main' mainWinner.member mainWinner.gains first)

/-- The detector answers exactly to the handovers in which a loser and a winner trade on both days. -/
theorem migration_alive (family : VolumeFamily ι) : family.migration.isSome ↔ family.Migrates ∧
    (∃ loser ∈ family.members, (family.spanAt loser).Loses ∧ 0 < (family.spanAt loser).last) ∧
    ∃ winner ∈ family.members, (family.spanAt winner).Gains ∧ 0 < (family.spanAt winner).first := by
  constructor
  · intro some
    obtain ⟨event, found⟩ := Option.isSome_iff_exists.mp some
    obtain ⟨migrates, loser, memberL, winner, memberW, -, -, ⟨loses, last, -⟩, ⟨gains, first, -⟩⟩ := migration_reports found
    exact ⟨migrates, ⟨loser, memberL, loses, last⟩, winner, memberW, gains, first⟩
  · rintro ⟨migrates, ⟨loser, memberL, loses, last⟩, winner, memberW, gains, first⟩
    exact migration_reported migrates memberL loses last memberW gains first

local instance thousand : Nat.AtLeastTwo 1000 := ⟨by decide⟩

def handover : VolumeFamily ℕ where
  members := [(0, [some 1000, some 1000, some 500, none]), (1, [none, none, some 500, some 1000])]
  apart := by decide

/-- A complete handover is not reported. -/
theorem complete_handover_missed : ¬ handover.DetectsExactly := by
  rintro ⟨detects, -⟩
  have migrates : handover.Migrates := by
    refine ⟨by decide, by decide +kernel, ⟨_, List.mem_cons_self, by decide +kernel⟩, ?_⟩
    exact ⟨_, List.mem_cons_of_mem _ List.mem_cons_self, by decide +kernel⟩
  have missed : handover.migration.isSome = false := by decide +kernel
  rw [detects.mpr migrates] at missed
  cases missed

end LpTerminal.Volume
