import LpTerminal.Lib.Replies
import Mathlib.Order.Lattice

/-!
The windowed scan of a block range, with windows that halve where a provider rejects their range.
-/

namespace LpTerminal.Catalog

open Durable

inductive ScanFailure
  /-- The process ended while it awaited a reply, or between two statements. -/
  | stopped
  /-- More rounds were needed than were given. -/
  | unended
  | request
  /-- "RPC rejects even a one-block eth_getLogs request; configure a logs-capable indexer RPC" -/
  | singleBlock
deriving DecidableEq

inductive Settled
  | fulfilled
  | rejected (isLogRangeError : Bool)

structure LogWindow where
  fromBlock : Nat
  toBlock : Nat

/-- What a scan asks for, and what the commit of a window does to the store. -/
structure AdaptiveLogScanOptions (σ φ : Type) where
  fromBlock : Nat
  toBlock : Nat
  maxWindowBlocks : Nat
  concurrency : Nat
  commitWindow : LogWindow → σ → σ × List φ

namespace AdaptiveLogScan

variable {σ ρ φ : Type}

/-- The windows of one batch, `count` at most. -/
def windowsFrom (toBlock windowBlocks : Nat) : Nat → Nat → List LogWindow
  | 0, _ => []
  | count + 1, lo =>
    if lo ≤ toBlock then ⟨lo, min (lo + windowBlocks - 1) toBlock⟩ :: windowsFrom toBlock windowBlocks count (lo + windowBlocks) else []

def resume (lo : Nat) (windows : List LogWindow) : Nat := windows.foldl (fun _ window => window.toBlock + 1) lo

def settleAll (answer : ρ → Settled) : List LogWindow → Durable ScanFailure (Process σ ρ) (List Settled)
  | [] => pure []
  | _ :: rest => do
    let settled ← await .stopped fun reply => .ok (answer reply)
    let others ← settleAll answer rest
    pure (settled :: others)

/-- `settled.find((result) => result.status === 'rejected')`. -/
def firstRejection : List Settled → Option Bool
  | [] => none
  | .fulfilled :: rest => firstRejection rest
  | .rejected isLogRangeError :: _ => some isLogRangeError

def commitAll (options : AdaptiveLogScanOptions σ φ) : List LogWindow → Durable ScanFailure (Process σ ρ) (List φ)
  | [] => pure []
  | window :: rest => do
    await .stopped fun _ => .ok ()
    let process ← read
    commit fun store => (options.commitWindow window store).1
    let more ← commitAll options rest
    pure ((options.commitWindow window process.store).2 ++ more)

def rounds (options : AdaptiveLogScanOptions σ φ) (answer : ρ → Settled) (windowBlocks lo : Nat) (probed : Bool) :
    Nat → Durable ScanFailure (Process σ ρ) (List φ)
  | 0 => fail .unended
  | n + 1 =>
    if options.toBlock < lo then pure []
    else do
      let batchSize := if probed then max 1 options.concurrency else 1
      let windows := windowsFrom options.toBlock windowBlocks batchSize lo
      let settled ← settleAll answer windows
      match firstRejection settled with
      | some isLogRangeError =>
        if isLogRangeError = false then fail .request
        else if windowBlocks = 1 then fail .singleBlock
        else rounds options answer (max 1 (windowBlocks / 2)) lo false n
      | none => do
        let fresh ← commitAll options windows
        let more ← rounds options answer windowBlocks (resume lo windows) true n
        pure (fresh ++ more)

end AdaptiveLogScan

open AdaptiveLogScan

variable {σ ρ φ : Type}

def scanAdaptiveLogWindows (options : AdaptiveLogScanOptions σ φ) (answer : ρ → Settled) : Durable ScanFailure (Process σ ρ) (List φ) :=
  rounds options answer (max 1 options.maxWindowBlocks) options.fromBlock false
    (options.toBlock + 1 - options.fromBlock + max 1 options.maxWindowBlocks + 1)

namespace AdaptiveLogScan

variable {options : AdaptiveLogScanOptions σ φ} {answer : ρ → Settled} {windowBlocks lo : Nat} {probed : Bool}

variable {windows : List LogWindow}

theorem settleAll_avoids : Avoids .unended (settleAll answer windows : Durable ScanFailure (Process σ ρ) (List Settled)) := by
  induction windows with
  | nil => exact avoids_pure _
  | cons window rest ih =>
    refine avoids_bind (avoids_await (by decide) fun _ same => by cases same) fun settled => ?_
    exact avoids_bind ih fun others => avoids_pure _

theorem commitAll_avoids : Avoids .unended (commitAll options windows : Durable ScanFailure (Process σ ρ) (List φ)) := by
  induction windows with
  | nil => exact avoids_pure _
  | cons window rest ih =>
    refine avoids_bind (avoids_await (by decide) fun _ same => by cases same) fun _ => avoids_bind avoids_read fun process => ?_
    exact avoids_bind avoids_write fun _ => avoids_bind ih fun more => avoids_pure _

theorem windowsFrom_cons {toBlock count : Nat} (within : lo ≤ toBlock) :
    windowsFrom toBlock windowBlocks (count + 1) lo =
      ⟨lo, min (lo + windowBlocks - 1) toBlock⟩ :: windowsFrom toBlock windowBlocks count (lo + windowBlocks) :=
  if_pos within

theorem lt_resume {toBlock : Nat} (count : Nat) (positive : 0 < windowBlocks) (within : lo ≤ toBlock) :
    lo < resume lo (windowsFrom toBlock windowBlocks (count + 1) lo) := by
  induction count generalizing lo with
  | zero =>
    rw [windowsFrom_cons within]
    change lo < min (lo + windowBlocks - 1) toBlock + 1
    omega
  | succ count ih =>
    rw [windowsFrom_cons within]
    by_cases more : lo + windowBlocks ≤ toBlock
    · have later := ih more
      rw [windowsFrom_cons more] at later ⊢
      exact Nat.lt_of_le_of_lt (Nat.le_add_right _ _) later
    · have none : windowsFrom toBlock windowBlocks (count + 1) (lo + windowBlocks) = [] := if_neg more
      rw [none]
      change lo < min (lo + windowBlocks - 1) toBlock + 1
      omega

theorem batchSize_pos (options : AdaptiveLogScanOptions σ φ) (probed : Bool) :
    ∃ count, (if probed then max 1 options.concurrency else 1) = count + 1 := by
  split
  · exact ⟨max 1 options.concurrency - 1, by omega⟩
  · exact ⟨0, rfl⟩

theorem rounds_avoids {n : Nat} (positive : 0 < windowBlocks) (enough : options.toBlock + 1 - lo + windowBlocks < n) :
    Avoids .unended (rounds options answer windowBlocks lo probed n) := by
  induction n generalizing windowBlocks lo probed with
  | zero => omega
  | succ n ih =>
    unfold rounds
    split
    · exact avoids_pure _
    · rename_i within
      obtain ⟨count, size⟩ := batchSize_pos options probed
      dsimp only
      rw [size]
      refine avoids_bind settleAll_avoids fun settled => ?_
      split
      · split
        · exact avoids_fail (by decide)
        · split
          · exact avoids_fail (by decide)
          · exact ih (by omega) (by omega)
      · have ahead := lt_resume count positive (not_lt.mp within)
        exact avoids_bind commitAll_avoids fun fresh => avoids_bind (ih positive (by omega)) fun more => avoids_pure _

theorem scan_avoids : Avoids .unended (scanAdaptiveLogWindows options answer) :=
  rounds_avoids (by omega) (Nat.lt_succ_self _)

variable {I : Nat → σ → Prop}

theorem commitAll_keeps (kept : ∀ lo hi store, lo ≤ hi → hi ≤ options.toBlock → I lo store → I (hi + 1) (options.commitWindow ⟨lo, hi⟩ store).1)
    (positive : 0 < windowBlocks) {count : Nat} :
    Triple (Stored (I lo)) (commitAll options (windowsFrom options.toBlock windowBlocks count lo) : Durable ScanFailure (Process σ ρ) (List φ))
      (fun _ => Stored (I (resume lo (windowsFrom options.toBlock windowBlocks count lo)))) (Stored fun store => ∃ lo, I lo store) := by
  induction count generalizing lo with
  | zero => exact triple_pure fun _ holds => holds
  | succ count ih =>
    by_cases within : lo ≤ options.toBlock
    · rw [windowsFrom_cons within]
      unfold commitAll
      refine triple_await_bind (fun _ holds => ⟨lo, holds⟩) fun _ => ?_
      refine triple_each fun process holds => triple_read_at ?_
      refine triple_bind (Q := fun _ => Stored (I (min (lo + windowBlocks - 1) options.toBlock + 1))) ?_ fun _ => ?_
      · rintro process rfl
        exact kept lo _ process.store (by omega) (Nat.min_le_right _ _) holds
      · by_cases more : lo + windowBlocks ≤ options.toBlock
        · have ends : min (lo + windowBlocks - 1) options.toBlock + 1 = lo + windowBlocks := by omega
          have same : resume lo (⟨lo, min (lo + windowBlocks - 1) options.toBlock⟩ ::
              windowsFrom options.toBlock windowBlocks count (lo + windowBlocks)) =
              resume (lo + windowBlocks) (windowsFrom options.toBlock windowBlocks count (lo + windowBlocks)) := by
            change resume (min (lo + windowBlocks - 1) options.toBlock + 1) _ = _
            rw [ends]
          rw [ends, same]
          exact triple_bind ih fun _ => triple_pure fun _ holds => holds
        · have none : windowsFrom options.toBlock windowBlocks count (lo + windowBlocks) = [] := by
            cases count with
            | zero => rfl
            | succ count => exact if_neg more
          rw [none]
          exact triple_bind (triple_pure fun _ holds => holds) fun _ => triple_pure fun _ holds => holds
    · have none : windowsFrom options.toBlock windowBlocks (count + 1) lo = [] := if_neg within
      rw [none]
      exact triple_pure fun _ holds => holds

theorem settleAll_keeps {P : σ → Prop} :
    Triple (Stored P) (settleAll answer windows : Durable ScanFailure (Process σ ρ) (List Settled)) (fun _ => Stored P) (Stored P) := by
  induction windows with
  | nil => exact triple_pure fun _ holds => holds
  | cons window rest ih =>
    exact triple_await_bind (fun _ holds => holds) fun _ => triple_bind ih fun _ => triple_pure fun _ holds => holds

theorem resume_le {toBlock count : Nat} (start : lo ≤ toBlock + 1) :
    resume lo (windowsFrom toBlock windowBlocks count lo) ≤ toBlock + 1 := by
  induction count generalizing lo with
  | zero => exact start
  | succ count ih =>
    by_cases within : lo ≤ toBlock
    · rw [windowsFrom_cons within]
      by_cases more : lo + windowBlocks ≤ toBlock
      · have later := ih (by omega : lo + windowBlocks ≤ toBlock + 1)
        cases count with
        | zero =>
          change min (lo + windowBlocks - 1) toBlock + 1 ≤ toBlock + 1
          omega
        | succ count =>
          rw [windowsFrom_cons more] at later ⊢
          exact later
      · have none : windowsFrom toBlock windowBlocks count (lo + windowBlocks) = [] := by
          cases count with
          | zero => rfl
          | succ count => exact if_neg more
        rw [none]
        change min (lo + windowBlocks - 1) toBlock + 1 ≤ toBlock + 1
        omega
    · have none : windowsFrom toBlock windowBlocks (count + 1) lo = [] := if_neg within
      rw [none]
      exact start

theorem rounds_keeps {n : Nat}
    (kept : ∀ lo hi store, lo ≤ hi → hi ≤ options.toBlock → I lo store → I (hi + 1) (options.commitWindow ⟨lo, hi⟩ store).1)
    (positive : 0 < windowBlocks) (start : lo ≤ options.toBlock + 1) :
    Triple (Stored (I lo)) (rounds options answer windowBlocks lo probed n)
      (fun _ => Stored (I (options.toBlock + 1)))
      (Stored fun store => ∃ lo, I lo store) := by
  induction n generalizing windowBlocks lo probed with
  | zero => exact triple_fail fun _ holds => ⟨lo, holds⟩
  | succ n ih =>
    unfold rounds
    split
    · rename_i passed
      have done : lo = options.toBlock + 1 := by omega
      subst done
      exact triple_pure fun _ holds => holds
    · dsimp only
      refine triple_bind (triple_weaken settleAll_keeps (fun _ => id) (fun _ _ => id) fun _ holds => ⟨lo, holds⟩) fun settled => ?_
      split
      · split
        · exact triple_fail fun _ holds => ⟨lo, holds⟩
        · split
          · exact triple_fail fun _ holds => ⟨lo, holds⟩
          · exact ih (by omega) start
      · refine triple_bind (commitAll_keeps kept positive) fun fresh => ?_
        exact triple_bind (ih positive (resume_le start)) fun more => triple_pure fun _ holds => holds

theorem scan_keeps (kept : ∀ lo hi store, lo ≤ hi → hi ≤ options.toBlock → I lo store → I (hi + 1) (options.commitWindow ⟨lo, hi⟩ store).1) :
    Triple (Stored (I options.fromBlock)) (scanAdaptiveLogWindows options answer)
      (fun _ => Stored fun store => I (max options.fromBlock (options.toBlock + 1)) store) (Stored fun store => ∃ lo, I lo store) := by
  by_cases start : options.fromBlock ≤ options.toBlock + 1
  · rw [max_eq_right start]
    exact rounds_keeps kept (by omega) start
  · unfold scanAdaptiveLogWindows rounds
    rw [if_pos (by omega), max_eq_left (by omega)]
    exact triple_pure fun _ holds => holds

end AdaptiveLogScan

end LpTerminal.Catalog
