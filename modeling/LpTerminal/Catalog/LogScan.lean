import Mathlib.Data.Rat.Floor
import Mathlib.Data.List.Infix

/-!
The windowed scan with its calls in flight: the requests of a batch may settle in any order, and any call may fail.
-/

namespace LpTerminal.Catalog.LogScan

variable {T : Type*}

structure Window where
  fromBlock : ℤ
  toBlock : ℤ

/-- A missing concurrency is 1. -/
structure Options where
  fromBlock : ℤ
  toBlock : ℤ
  maxWindowBlocks : ℚ
  concurrency : Option ℚ

/-- `Math.max(1, Math.floor(value))`. -/
def atLeastOne (value : ℚ) : ℕ := max 1 ⌊value⌋.toNat

def Options.batch (options : Options) : ℕ := atLeastOne (options.concurrency.getD 1)

inductive ScanError
  /-- The reason of a request's rejection. -/
  | fetch (reason : String)
  | commit (reason : String)
  | singleBlock

/-- `LOG_RANGE_ERROR`, whose case-insensitive letters are ASCII. -/
def logRangeErrors : List String :=
  ["limit", "block range", "range limit", "too many", "response size", "query returned", "invalid parameters", "missing or invalid"]

def isLogRangeError (message : String) : Bool :=
  logRangeErrors.any fun text => decide (text.toList <:+: message.toList.map Char.toLower)

/-- A call of `fetchWindow`, with what its promise settled to. -/
structure Fetch (T : Type*) where
  window : Window
  outcome : Option (Except String T)

/-- A call of `commitWindow`. -/
structure Commit (T : Type*) where
  window : Window
  rows : T

inductive Phase (T : Type*)
  /-- The batch awaits its calls, of which the first has this number. -/
  | fetching (first : ℕ) (windows : List Window)
  /-- The first of the windows is being committed. -/
  | committing (window : Commit T) (rest : List (Commit T))
  | returned
  | threw (error : ScanError)

/-- The variables of the scan with all its calls. `committed` has those whose `commitWindow` resolved. -/
structure World (T : Type*) where
  windowBlocks : ℕ
  lo : ℤ
  probed : Bool
  phase : Phase T
  fetches : List (Fetch T)
  commits : List (Commit T)
  committed : List (Commit T)

/-- The windows of a batch, `count` at most. -/
def windowsFrom (toBlock : ℤ) (windowBlocks : ℕ) : ℕ → ℤ → List Window
  | 0, _ => []
  | count + 1, fromBlock =>
    if fromBlock ≤ toBlock then
      { fromBlock, toBlock := min (fromBlock + windowBlocks - 1) toBlock } ::
        windowsFrom toBlock windowBlocks count (fromBlock + windowBlocks)
    else []

def nextBatch (options : Options) (w : World T) : World T :=
  if w.lo ≤ options.toBlock then
    let windows := windowsFrom options.toBlock w.windowBlocks (if w.probed then options.batch else 1) w.lo
    { w with
      phase := .fetching w.fetches.length windows
      fetches := w.fetches ++ windows.map fun window => { window, outcome := none } }
  else { w with phase := .returned }

def start (options : Options) : World T :=
  let w : World T :=
    { windowBlocks := atLeastOne options.maxWindowBlocks, lo := options.fromBlock, probed := false, phase := .returned, fetches := []
      commits := [], committed := [] }
  if options.toBlock < options.fromBlock then w else nextBatch options w

def commitNext (options : Options) (rest : List (Commit T)) (w : World T) : World T :=
  match rest with
  | [] => nextBatch options { w with probed := true }
  | window :: rest => { w with phase := .committing window rest, commits := w.commits ++ [window] }

def outcomeOf (fetches : List (Fetch T)) (call : ℕ) : Option (Except String T) := (fetches[call]?).bind Fetch.outcome

/-- `Promise.allSettled`: what the calls of the windows settled to, once all have. -/
def allSettled (fetches : List (Fetch T)) : ℕ → List Window → Option (List (Window × Except String T))
  | _, [] => some []
  | call, window :: rest =>
    match outcomeOf fetches call, allSettled fetches (call + 1) rest with
    | some outcome, some others => some ((window, outcome) :: others)
    | _, _ => none

def rejected : List (Window × Except String T) → Option String
  | [] => none
  | (_, .error reason) :: _ => some reason
  | (_, .ok _) :: rest => rejected rest

def fulfilled : List (Window × Except String T) → List (Commit T)
  | [] => []
  | (_, .error _) :: rest => fulfilled rest
  | (window, .ok rows) :: rest => { window, rows } :: fulfilled rest

def afterBatch (options : Options) (settled : List (Window × Except String T)) (w : World T) : World T :=
  match rejected settled with
  | some reason =>
    if !isLogRangeError reason then { w with phase := .threw (.fetch reason) }
    else if w.windowBlocks = 1 then { w with phase := .threw .singleBlock }
    else nextBatch options { w with windowBlocks := max 1 (w.windowBlocks / 2), probed := false }
  | none => commitNext options (fulfilled settled) w

inductive Event (T : Type*)
  | fetchSettles (call : ℕ) (outcome : Except String T)
  | commitSettles (outcome : Except String Unit)

def pending (fetches : List (Fetch T)) (call : ℕ) : Bool := ((fetches[call]?).map fun fetch => fetch.outcome.isNone).getD false

def fetchSettles (options : Options) (call : ℕ) (outcome : Except String T) (w : World T) : World T :=
  let w := { w with fetches := w.fetches.modify call fun fetch => { fetch with outcome := some outcome } }
  match w.phase with
  | .fetching first windows =>
    match allSettled w.fetches first windows with
    | some settled => afterBatch options settled w
    | none => w
  | _ => w

def step (options : Options) (w : World T) : Event T → World T
  | .fetchSettles call outcome => if pending w.fetches call then fetchSettles options call outcome w else w
  | .commitSettles outcome =>
    match w.phase, outcome with
    | .committing window rest, .ok () =>
      commitNext options rest { w with lo := window.window.toBlock + 1, committed := w.committed ++ [window] }
    | .committing _ _, .error reason => { w with phase := .threw (.commit reason) }
    | _, _ => w

def worldAt (options : Options) (schedule : ℕ → Event T) : ℕ → World T
  | 0 => start options
  | n + 1 => step options (worldAt options schedule n) (schedule n)

end LpTerminal.Catalog.LogScan
